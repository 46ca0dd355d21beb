import Mathlib.Data.List.TakeWhile
import Mathlib.Tactic.SplitIfs
import SvgDisplayList.Proofs.Text.Pieces

/-!
# Trimmed texts

Trimming takes the blanks at both ends off a text and nothing else (`Text.exists_trim`): a text has
the trimmed text between two runs of blanks, and the trimmed text neither starts nor ends with one.

A word may also be looked for at the start of a text, at its end, or for the last time anywhere in
it (`Text.beforeLast?_eq_some_iff`).
-/

namespace SvgDisplayList

namespace Text

variable {p : Char → Bool} {a b m cs : List Char} {c : Char}

/-- Nothing but blanks. -/
def IsBlankRun (cs : List Char) : Prop := ∀ c ∈ cs, isBlank c = true

/-- What is left does not start with the class that is dropped. -/
lemma head?_dropLeading (p : Char → Bool) (cs : List Char) :
    ∀ c ∈ (dropLeading p cs).head?, p c = false := by
  intro c hc
  have hfirst := List.head?_dropWhile_not p cs
  rw [show (cs.dropWhile p).head? = some c from hc] at hfirst
  exact hfirst

/-- What stands in front is dropped if it is of the class. -/
lemma dropLeading_append (ha : ∀ x ∈ a, p x = true) : dropLeading p (a ++ m) = dropLeading p m :=
  List.dropWhile_append_of_pos ha

/-- What stands behind is dropped if it is of the class. -/
lemma dropTrailing_append (hb : ∀ x ∈ b, p x = true) :
    dropTrailing p (m ++ b) = dropTrailing p m := by
  unfold dropTrailing
  rw [List.reverse_append, List.dropWhile_append_of_pos (by simpa using hb)]

/-- A text that starts with another class keeps its start. -/
lemma dropTrailing_cons (hc : p c = false) : dropTrailing p (c :: m) = c :: dropTrailing p m := by
  unfold dropTrailing
  rw [List.reverse_cons, List.dropWhile_append]
  split_ifs with hnone
  · rw [List.isEmpty_iff] at hnone
    rw [hnone, List.dropWhile_cons_of_neg (by simp [hc])]
    rfl
  · rw [List.reverse_append]
    rfl

/-- A text keeps everything up to a character of another class. -/
lemma dropTrailing_append_cons (hc : p c = false) :
    dropTrailing p (a ++ c :: m) = a ++ c :: dropTrailing p m := by
  unfold dropTrailing
  rw [List.reverse_append, List.reverse_cons, List.append_assoc, List.dropWhile_append]
  split_ifs with hnone
  · rw [List.isEmpty_iff] at hnone
    rw [hnone, List.singleton_append, List.dropWhile_cons_of_neg (by simp [hc])]
    simp
  · simp

/-- A text without characters of the class stays as it is. -/
lemma trimBy_eq_self (h : ∀ x ∈ cs, p x = false) : trimBy p cs = cs := by
  have hdrop : ∀ xs : List Char, (∀ x ∈ xs, p x = false) → xs.dropWhile p = xs := by
    intro xs hxs
    cases xs with
    | nil => rfl
    | cons x xs => rw [List.dropWhile_cons_of_neg (by simp [hxs x List.mem_cons_self])]
  unfold trimBy dropTrailing dropLeading
  rw [hdrop cs h, hdrop _ (by simpa using h), List.reverse_reverse]

/-- What is dropped at the end of a text is of the class. -/
lemma exists_dropTrailing (p : Char → Bool) (cs : List Char) :
    ∃ b, (∀ x ∈ b, p x = true) ∧ cs = dropTrailing p cs ++ b := by
  refine ⟨(cs.reverse.takeWhile p).reverse, fun x hx => ?_, ?_⟩
  · exact List.mem_takeWhile_imp (List.mem_reverse.mp hx)
  · unfold dropTrailing
    rw [← List.reverse_append, List.takeWhile_append_dropWhile, List.reverse_reverse]

/-- A text that does not start with a blank is trimmed at its end. -/
lemma trim_cons (hc : isBlank c = false) : trim (c :: m) = c :: dropTrailing isBlank m := by
  unfold trim trimBy dropLeading
  rw [List.dropWhile_cons_of_neg (by simp [hc]), dropTrailing_cons hc]

/-- Blanks at the ends of a text make no difference to what is trimmed. -/
lemma trim_append (ha : IsBlankRun a) (hb : IsBlankRun b) : trim (a ++ (m ++ b)) = trim m := by
  unfold trim trimBy
  rw [dropLeading_append ha]
  cases hm : dropLeading isBlank m with
  | nil =>
    have hblank : ∀ x ∈ m, isBlank x = true := List.dropWhile_eq_nil_iff.mp hm
    rw [dropLeading_append hblank]
    have hnone : dropLeading isBlank b = [] := List.dropWhile_eq_nil_iff.mpr hb
    rw [hnone]
  | cons c r =>
    have happend : dropLeading isBlank (m ++ b) = c :: r ++ b := by
      unfold dropLeading at hm ⊢
      rw [List.dropWhile_append, hm]
      rfl
    rw [happend, dropTrailing_append hb]

/-- A text is its trimmed text between two runs of blanks. -/
lemma exists_trim (cs : List Char) :
    ∃ a b, IsBlankRun a ∧ IsBlankRun b ∧ cs = a ++ (trim cs ++ b) := by
  obtain ⟨b, hb, hend⟩ := exists_dropTrailing isBlank (dropLeading isBlank cs)
  refine ⟨cs.takeWhile isBlank, b, fun _ => List.mem_takeWhile_imp, hb, ?_⟩
  calc cs = cs.takeWhile isBlank ++ dropLeading isBlank cs := List.takeWhile_append_dropWhile.symm
    _ = cs.takeWhile isBlank ++ (trim cs ++ b) := by rw [hend]; rfl

/-- A trimmed text is trimmed. -/
lemma trim_trim (cs : List Char) : trim (trim cs) = trim cs := by
  obtain ⟨a, b, ha, hb, heq⟩ := exists_trim cs
  calc trim (trim cs) = trim (a ++ (trim cs ++ b)) := (trim_append ha hb).symm
    _ = trim cs := by rw [← heq]

/-- Blanks that are dropped at the end make no difference to what is trimmed. -/
lemma trim_dropTrailing (cs : List Char) : trim (dropTrailing isBlank cs) = trim cs := by
  obtain ⟨b, hb, heq⟩ := exists_dropTrailing isBlank cs
  calc trim (dropTrailing isBlank cs) = trim ([] ++ (dropTrailing isBlank cs ++ b)) :=
        (trim_append (List.forall_mem_nil _) hb).symm
    _ = trim cs := by rw [← heq, List.nil_append]

/-- A text without blanks is trimmed. -/
lemma trim_eq_of_not_blank (h : ∀ x ∈ cs, isBlank x = false) : trim cs = cs := by
  have hnil {run : List Char} (hrun : IsBlankRun run) (hsub : run ⊆ cs) : run = [] := by
    refine List.eq_nil_iff_forall_not_mem.mpr fun x hx => ?_
    have hblank := hrun x hx
    rw [h x (hsub hx)] at hblank
    cases hblank
  obtain ⟨a, b, ha, hb, heq⟩ := exists_trim cs
  obtain rfl := hnil ha (heq ▸ List.subset_append_left _ _)
  obtain rfl := hnil hb fun x hx => heq ▸ List.mem_append_right _ (List.mem_append_right _ hx)
  simpa using heq.symm

/-- What follows a given start follows it. -/
lemma after?_append (word rest : List Char) : after? word (word ++ rest) = some rest := by
  induction word with
  | nil => rfl
  | cons x word ih => rw [List.cons_append, after?, if_pos rfl, ih]

/-- What is behind a given start. -/
lemma eq_append_of_after? {word text rest : List Char} (h : after? word text = some rest) :
    text = word ++ rest := by
  induction word generalizing text with
  | nil => exact Option.some.inj h
  | cons x word ih =>
    cases text with
    | nil => cases h
    | cons y text =>
      unfold after? at h
      split_ifs at h with hxy
      rw [hxy, ih h, List.cons_append]

/-- What is in front of a given end. -/
lemma eq_append_of_before? {ending front : List Char} (h : before? ending cs = some front) :
    cs = front ++ ending := by
  obtain ⟨rest, hrest, rfl⟩ := Option.map_eq_some_iff.mp h
  have hreverse := congrArg List.reverse (eq_append_of_after? hrest)
  simpa using hreverse

/-! ## The last occurrence of a word -/

variable {word text before front : List Char}

/-- A word stands in a text behind some of it. -/
def OccursBehind (word text before : List Char) : Prop :=
  ∃ rest, text = before ++ (word ++ rest)

/-- A word stands in a text for the last time behind some of it. -/
structure LastBehind (word text before : List Char) : Prop where
  occurs : OccursBehind word text before
  last : ∀ front, OccursBehind word text front → front.length ≤ before.length

/-- A word stands at the start of a text or behind its first character. -/
lemma occursBehind_cons_iff : OccursBehind word (c :: text) before ↔
    (before = [] ∧ ∃ rest, after? word (c :: text) = some rest) ∨
      ∃ front, before = c :: front ∧ OccursBehind word text front := by
  constructor
  · rintro ⟨rest, heq⟩
    cases before with
    | nil => exact Or.inl ⟨rfl, rest, by rw [heq, List.nil_append, after?_append]⟩
    | cons x front =>
      obtain ⟨rfl, htext⟩ := List.cons.inj heq
      exact Or.inr ⟨front, rfl, rest, htext⟩
  · rintro (⟨rfl, rest, hrest⟩ | ⟨front, rfl, rest, rfl⟩)
    · exact ⟨rest, by rw [List.nil_append, ← eq_append_of_after? hrest]⟩
    · exact ⟨rest, rfl⟩

/-- A word stands for the last time where it does in the text behind the first character. -/
lemma LastBehind.cons (h : LastBehind word text before) :
    LastBehind word (c :: text) (c :: before) where
  occurs := occursBehind_cons_iff.mpr (Or.inr ⟨before, rfl, h.occurs⟩)
  last := by
    intro front hfront
    rcases occursBehind_cons_iff.mp hfront with ⟨rfl, -⟩ | ⟨front, rfl, hlater⟩
    · exact Nat.zero_le _
    · exact Nat.succ_le_succ (h.last front hlater)

/-- A word that does not stand behind the first character stands at the start of a text for the last
time, if it stands there. -/
lemma lastBehind_nil {rest : List Char} (hstart : after? word (c :: text) = some rest)
    (hnone : ∀ before, ¬ OccursBehind word text before) : LastBehind word (c :: text) [] where
  occurs := occursBehind_cons_iff.mpr (Or.inl ⟨rfl, rest, hstart⟩)
  last := by
    intro front hfront
    rcases occursBehind_cons_iff.mp hfront with ⟨rfl, -⟩ | ⟨front, -, hlater⟩
    · exact le_rfl
    · exact absurd hlater (hnone front)

/-- In the empty text stands the empty word alone. -/
lemma occursBehind_nil_iff : OccursBehind word [] before ↔ before = [] ∧ word = [] := by
  constructor
  · rintro ⟨rest, heq⟩
    obtain ⟨hbefore, hword⟩ := List.append_eq_nil_iff.mp heq.symm
    exact ⟨hbefore, (List.append_eq_nil_iff.mp hword).1⟩
  · rintro ⟨rfl, rfl⟩
    exact ⟨[], rfl⟩

/-- A word that is found stands where it is found for the last time, and one that is not found does
not stand anywhere. -/
lemma beforeLast?_spec (word text : List Char) :
    (∀ before, beforeLast? word text = some before → LastBehind word text before) ∧
      (beforeLast? word text = none → ∀ before, ¬ OccursBehind word text before) := by
  induction text with
  | nil =>
    simp only [beforeLast?, occursBehind_nil_iff, List.isEmpty_iff]
    split_ifs with hword
    · refine ⟨fun before h => ?_, fun h => by cases h⟩
      cases h
      exact ⟨occursBehind_nil_iff.mpr ⟨rfl, hword⟩, fun front h => by
        rw [(occursBehind_nil_iff.mp h).1]⟩
    · exact ⟨fun before h => (by cases h), fun _ before h => hword h.2⟩
  | cons c text ih =>
    obtain ⟨hfound, hmissed⟩ := ih
    rw [beforeLast?]
    cases hlater : beforeLast? word text with
    | some later =>
      refine ⟨fun before h => ?_, fun h => by cases h⟩
      cases h
      exact (hfound later hlater).cons
    | none =>
      have hnone := hmissed hlater
      dsimp only
      cases hstart : after? word (c :: text) with
      | some rest =>
        refine ⟨fun before h => ?_, fun h => by cases h⟩
        cases h
        exact lastBehind_nil hstart hnone
      | none =>
        refine ⟨fun before h => (by cases h), fun _ before h => ?_⟩
        rcases occursBehind_cons_iff.mp h with ⟨-, rest, hrest⟩ | ⟨front, -, hlater⟩
        · rw [hstart] at hrest
          cases hrest
        · exact hnone front hlater

/-- A word stands for the last time only in one place. -/
lemma LastBehind.eq (h : LastBehind word text before) (h' : LastBehind word text front) :
    before = front := by
  obtain ⟨rest, heq⟩ := h.occurs
  obtain ⟨rest', heq'⟩ := h'.occurs
  exact List.append_inj_left (heq.symm.trans heq')
    (Nat.le_antisymm (h'.last before h.occurs) (h.last front h'.occurs))

/-- The text before the last occurrence of a word. -/
theorem beforeLast?_eq_some_iff :
    beforeLast? word text = some before ↔ LastBehind word text before := by
  obtain ⟨hfound, hmissed⟩ := beforeLast?_spec word text
  refine ⟨hfound before, fun h => ?_⟩
  cases hlast : beforeLast? word text with
  | some front => rw [(hfound front hlast).eq h]
  | none => exact absurd h.occurs (hmissed hlast before)

/-- There is no text before the last occurrence of a word exactly if the word does not occur. -/
theorem beforeLast?_eq_none_iff :
    beforeLast? word text = none ↔ ∀ before, ¬ OccursBehind word text before := by
  obtain ⟨hfound, hmissed⟩ := beforeLast?_spec word text
  refine ⟨hmissed, fun h => ?_⟩
  cases hlast : beforeLast? word text with
  | some front => exact absurd (hfound front hlast).occurs (h front)
  | none => rfl

end Text

end SvgDisplayList
