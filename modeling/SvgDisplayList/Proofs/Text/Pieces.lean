import Mathlib.Tactic.Lemma
import SvgDisplayList.Text.Blank

/-!
# Cutting texts

A text is cut into the pieces between the characters of a class.  Pieces have no character of the
class, and pieces that have none are what a text is cut into in which a separator stands between
each two of them (`Text.pieces_intercalate`).  Texts that have some are cut further, each for itself
(`Text.pieces_intercalate_eq_flatMap`).
-/

namespace SvgDisplayList

namespace Text

variable {p : Char → Bool} {a m r : List Char} {c : Char}

/-- A text is cut at its first character of a class. -/
lemma splitAt?_append (ha : ∀ x ∈ a, p x = false) (hc : p c = true) :
    splitAt? p (a ++ c :: r) = some (a, r) := by
  induction a with
  | nil =>
    rw [List.nil_append, splitAt?, if_pos hc]
  | cons x a ih =>
    obtain ⟨hx, ha⟩ := List.forall_mem_cons.mp ha
    rw [List.cons_append, splitAt?, hx, if_neg Bool.false_ne_true, ih ha]
    rfl

/-- A text that is cut has a first character of the class where it is cut. -/
lemma eq_append_of_splitAt? (h : splitAt? p a = some (r, m)) :
    ∃ c, p c = true ∧ a = r ++ c :: m ∧ ∀ x ∈ r, p x = false := by
  induction a generalizing r with
  | nil => cases h
  | cons x a ih =>
    rw [splitAt?] at h
    split at h
    · rename_i hx
      cases h
      exact ⟨x, hx, rfl, List.forall_mem_nil _⟩
    · rename_i hx
      obtain ⟨⟨front, behind⟩, hsplit, heq⟩ := Option.map_eq_some_iff.mp h
      cases heq
      obtain ⟨c, hc, rfl, hfront⟩ := ih hsplit
      exact ⟨c, hc, rfl, List.forall_mem_cons.mpr ⟨Bool.not_eq_true _ ▸ hx, hfront⟩⟩

/-- A text without separators is one piece. -/
lemma pieces_eq_singleton (ha : ∀ x ∈ a, p x = false) : pieces p a = [a] := by
  induction a with
  | nil => rfl
  | cons x a ih =>
    obtain ⟨hx, ha⟩ := List.forall_mem_cons.mp ha
    rw [pieces, hx, if_neg Bool.false_ne_true, ih ha]

/-- The first piece ends at the first separator. -/
lemma pieces_append (ha : ∀ x ∈ a, p x = false) (hc : p c = true) :
    pieces p (a ++ c :: r) = a :: pieces p r := by
  induction a with
  | nil => rw [List.nil_append, pieces, if_pos hc]
  | cons x a ih =>
    obtain ⟨hx, ha⟩ := List.forall_mem_cons.mp ha
    rw [List.cons_append, pieces, hx, if_neg Bool.false_ne_true, ih ha]

/-- A text that neither starts nor ends with a blank is left as it is. -/
lemma trim_eq_self {x y : Char} {m : List Char} (hx : isBlank x = false) (hy : isBlank y = false) :
    trim (x :: (m ++ [y])) = x :: (m ++ [y]) := by
  unfold trim trimBy dropLeading dropTrailing
  rw [List.dropWhile_cons_of_neg (by simp [hx]), ← List.cons_append, List.reverse_append,
    List.reverse_singleton, List.singleton_append, List.dropWhile_cons_of_neg (by simp [hy]),
    List.reverse_cons, List.reverse_reverse]

/-- No piece between the characters of a class has a character of the class. -/
lemma not_of_mem_pieces {p : Char → Bool} {cs : List Char} :
    ∀ w ∈ pieces p cs, ∀ c ∈ w, p c = false := by
  induction cs with
  | nil => simp [pieces]
  | cons c r ih =>
    rw [pieces]
    by_cases hc : p c = true
    · rw [if_pos hc]
      intro w hw
      rcases List.mem_cons.mp hw with rfl | hw
      · simp
      · exact ih w hw
    · rw [if_neg hc]
      have hc' : p c = false := Bool.not_eq_true _ ▸ hc
      split
      · simp [hc']
      · rename_i v vs hpieces
        rw [hpieces] at ih
        intro w hw
        rcases List.mem_cons.mp hw with rfl | hw
        · intro d hd
          rcases List.mem_cons.mp hd with rfl | hd
          · exact hc'
          · exact ih v List.mem_cons_self d hd
        · exact ih w (List.mem_cons_of_mem _ hw)

/-- Texts with another character between each two have no separators if none of them has. -/
lemma not_of_mem_intercalate (hc : p c = false) {ws : List (List Char)}
    (h : ∀ w ∈ ws, ∀ x ∈ w, p x = false) : ∀ x ∈ [c].intercalate ws, p x = false := by
  induction ws with
  | nil => exact List.forall_mem_nil _
  | cons w ws ih =>
    obtain ⟨hw, hws⟩ := List.forall_mem_cons.mp h
    cases ws with
    | nil =>
      rw [List.intercalate_singleton]
      exact hw
    | cons v vs =>
      rw [List.intercalate_cons_cons]
      intro x hx
      rcases List.mem_append.mp hx with hx | hx
      · rcases List.mem_append.mp hx with hx | hx
        · exact hw x hx
        · rwa [List.mem_singleton.mp hx]
      · exact ih hws x hx

/-- There is always a first piece. -/
lemma pieces_ne_nil (p : Char → Bool) (cs : List Char) : pieces p cs ≠ [] := by
  cases cs with
  | nil => exact List.cons_ne_nil _ _
  | cons c r =>
    rw [pieces]
    split
    · exact List.cons_ne_nil _ _
    · split <;> exact List.cons_ne_nil _ _

/-- Texts with a separator between them are cut each for itself. -/
lemma pieces_append_cons (hc : p c = true) (a r : List Char) :
    pieces p (a ++ c :: r) = pieces p a ++ pieces p r := by
  induction a with
  | nil =>
    change pieces p (c :: r) = [] :: pieces p r
    rw [pieces, if_pos hc]
  | cons x a ih =>
    obtain ⟨w, ws, hws⟩ := List.exists_cons_of_ne_nil (pieces_ne_nil p a)
    rw [List.cons_append, pieces, pieces, ih, hws]
    by_cases hx : p x = true
    · rw [if_pos hx, if_pos hx]
      rfl
    · rw [if_neg hx, if_neg hx]
      rfl

/-- Texts with a separator between each two are cut each for itself. -/
lemma pieces_intercalate_eq_flatMap (hc : p c = true) {ws : List (List Char)} (hne : ws ≠ []) :
    pieces p ([c].intercalate ws) = ws.flatMap (pieces p) := by
  induction ws with
  | nil => exact absurd rfl hne
  | cons w ws ih =>
    cases ws with
    | nil => rw [List.intercalate_singleton, List.flatMap_singleton]
    | cons v vs =>
      rw [List.intercalate_cons_cons, List.append_assoc, List.singleton_append,
        pieces_append_cons hc, ih (List.cons_ne_nil _ _)]
      exact List.flatMap_cons.symm

/-- Pieces with a separator between each two are cut apart again. -/
lemma pieces_intercalate (hc : p c = true) {ws : List (List Char)} (hne : ws ≠ [])
    (h : ∀ w ∈ ws, ∀ x ∈ w, p x = false) : pieces p ([c].intercalate ws) = ws := by
  induction ws with
  | nil => exact absurd rfl hne
  | cons w ws ih =>
    obtain ⟨hw, hws⟩ := List.forall_mem_cons.mp h
    cases ws with
    | nil => rw [List.intercalate_singleton, pieces_eq_singleton hw]
    | cons v vs =>
      rw [List.intercalate_cons_cons, List.append_assoc, List.singleton_append, pieces_append hw hc,
        ih (List.cons_ne_nil _ _) hws]

end Text

end SvgDisplayList
