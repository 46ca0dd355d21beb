import SvgDisplayList.Proofs.Geometry.Move
import SvgDisplayList.Proofs.Text.Trim

/-!
# Lists of numbers

A list of numbers is written with blanks or commas between each two of them, and as many as one
likes at either end (`IsNumberList`).  Such texts, and no others, are read as lists of numbers
(`numberList?_eq_some_iff`); every other text has a word that is no finite number
(`numberList?_eq_none_iff`).
-/

namespace SvgDisplayList

/-! ## Words -/

namespace Text

variable {p : Char → Bool} {gap w rest : List Char}

/-- Separators in front of a text make no words. -/
lemma words_gap (hgap : ∀ c ∈ gap, p c = true) : words p (gap ++ rest) = words p rest := by
  induction gap with
  | nil => rfl
  | cons c gap ih =>
    obtain ⟨hc, hgap⟩ := List.forall_mem_cons.mp hgap
    rw [← ih hgap]
    unfold words
    rw [List.cons_append, pieces, if_pos hc, List.filter_cons_of_neg (by simp)]

/-- A run without separators is a word if one follows it, or nothing does. -/
lemma words_append (hne : w ≠ []) (hw : ∀ c ∈ w, p c = false)
    (hrest : ∀ c ∈ rest.head?, p c = true) : words p (w ++ rest) = w :: words p rest := by
  unfold words
  cases rest with
  | nil =>
    rw [List.append_nil, pieces_eq_singleton hw, List.filter_cons_of_pos (by simpa using hne)]
    rfl
  | cons c rest =>
    have hc := hrest c rfl
    rw [pieces_append hw hc, pieces, if_pos hc, List.filter_cons_of_pos (by simpa using hne),
      List.filter_cons_of_neg (by simp)]

/-- A text that is not made of separators has a first word. -/
lemma exists_word {cs : List Char} (h : ¬ ∀ c ∈ cs, p c = true) :
    ∃ gap w rest, cs = gap ++ (w ++ rest) ∧ (∀ c ∈ gap, p c = true) ∧ w ≠ [] ∧
      (∀ c ∈ w, p c = false) ∧ (∀ c ∈ rest.head?, p c = true) := by
  cases hbody : cs.dropWhile p with
  | nil => exact absurd (List.dropWhile_eq_nil_iff.mp hbody) h
  | cons c body =>
    have hc : p c = false := head?_dropLeading p cs c (congrArg List.head? hbody)
    refine ⟨cs.takeWhile p, c :: body.takeWhile (!p ·), body.dropWhile (!p ·), ?_,
      fun _ => List.mem_takeWhile_imp, List.cons_ne_nil _ _, ?_, fun d hd => ?_⟩
    · rw [List.cons_append, List.takeWhile_append_dropWhile, ← hbody,
        List.takeWhile_append_dropWhile]
    · refine List.forall_mem_cons.mpr ⟨hc, fun d hd => ?_⟩
      simpa using List.mem_takeWhile_imp hd
    · simpa using head?_dropLeading (!p ·) body d hd

end Text

/-! ## Numbers -/

/-- A text of numbers, with a separator between each two of them and separators at either end. -/
inductive IsNumberList : List Float32 → List Char → Prop where
  | nil {gap : List Char} (hgap : ∀ c ∈ gap, isListSeparator c = true) : IsNumberList [] gap
  | cons {gap w rest : List Char} {x : Float32} {xs : List Float32}
      (hgap : ∀ c ∈ gap, isListSeparator c = true) (hw : finiteNumber? w = some x)
      (hseparated : xs ≠ [] → ∃ c ∈ rest.head?, isListSeparator c = true)
      (hrest : IsNumberList xs rest) : IsNumberList (x :: xs) (gap ++ (w ++ rest))

namespace IsNumberList

variable {xs : List Float32} {cs : List Char}

/-- A list of numbers is read as these numbers. -/
lemma numberList?_eq (h : IsNumberList xs cs) : numberList? cs = some xs := by
  induction h with
  | @nil gap hgap =>
    have hwords : Text.words isListSeparator gap = [] := by
      have hwords := @Text.words_gap isListSeparator gap [] hgap
      rwa [List.append_nil] at hwords
    unfold numberList?
    rw [hwords]
    rfl
  | @cons gap w rest x xs hgap hw hseparated hrest ih =>
    obtain ⟨hne, hnumeral, -⟩ := finiteNumber?_spec hw
    have hhead : ∀ c ∈ rest.head?, isListSeparator c = true := by
      intro c hc
      cases hrest with
      | nil hgap' => exact hgap' c (List.mem_of_mem_head? hc)
      | cons =>
        obtain ⟨d, hd, hsep⟩ := hseparated (List.cons_ne_nil _ _)
        obtain rfl : c = d := Option.some.inj (hc.symm.trans hd)
        exact hsep
    unfold numberList? at ih ⊢
    rw [Text.words_gap hgap, Text.words_append hne (fun c hc => (hnumeral c hc).spec.1) hhead,
      List.mapM_cons, hw, ih]
    rfl

/-- The numbers of a list are finite. -/
lemma isFinite (h : IsNumberList xs cs) : ∀ x ∈ xs, x.isFinite = true := by
  induction h with
  | nil => simp
  | cons hgap hw _ _ ih => exact List.forall_mem_cons.mpr ⟨(finiteNumber?_spec hw).2.2, ih⟩

/-- A list of numbers has no parentheses. -/
lemma ne_parenthesis (h : IsNumberList xs cs) : ∀ c ∈ cs, c ≠ '(' ∧ c ≠ ')' := by
  have hseparator {gap : List Char} (hgap : ∀ c ∈ gap, isListSeparator c = true) :
      ∀ c ∈ gap, c ≠ '(' ∧ c ≠ ')' := by
    intro c hc
    constructor <;> rintro rfl <;> exact absurd (hgap _ hc) (by decide)
  induction h with
  | nil hgap => exact hseparator hgap
  | cons hgap hw _ _ ih =>
    intro c hc
    rcases List.mem_append.mp hc with hc | hc
    · exact hseparator hgap c hc
    · rcases List.mem_append.mp hc with hc | hc
      · exact ((finiteNumber?_spec hw).2.1 c hc).spec.2.2
      · exact ih c hc

end IsNumberList

/-- What is read as numbers is a list of them. -/
lemma isNumberList_of_numberList? {xs : List Float32} {cs : List Char}
    (h : numberList? cs = some xs) : IsNumberList xs cs := by
  induction hlength : cs.length using Nat.strong_induction_on generalizing cs xs with
  | _ n ih =>
    by_cases hgap : ∀ c ∈ cs, isListSeparator c = true
    · have hnone := (IsNumberList.nil hgap).numberList?_eq
      obtain rfl : [] = xs := Option.some.inj (hnone.symm.trans h)
      exact .nil hgap
    · obtain ⟨gap, w, rest, rfl, hgap, hne, hw, hrest⟩ := Text.exists_word hgap
      unfold numberList? at h
      rw [Text.words_gap hgap, Text.words_append hne hw hrest, List.mapM_cons] at h
      obtain ⟨x, hx, h⟩ := Option.bind_eq_some_iff.mp h
      obtain ⟨ys, hys, h⟩ := Option.bind_eq_some_iff.mp h
      obtain rfl : x :: ys = xs := Option.some.inj h
      have hshorter : rest.length < n := by
        have := List.length_pos_of_ne_nil hne
        rw [← hlength, List.length_append, List.length_append]
        omega
      refine .cons hgap hx (fun hys' => ?_) (ih _ hshorter hys rfl)
      cases rest with
      | nil =>
        obtain rfl : [] = ys := Option.some.inj hys
        exact absurd rfl hys'
      | cons c rest => exact ⟨c, rfl, hrest c rfl⟩

/-- A text is read as numbers exactly if it is a list of them. -/
theorem numberList?_eq_some_iff {xs : List Float32} {cs : List Char} :
    numberList? cs = some xs ↔ IsNumberList xs cs :=
  ⟨isNumberList_of_numberList?, IsNumberList.numberList?_eq⟩

/-- A text is not read as numbers exactly if one of its words is no finite number. -/
theorem numberList?_eq_none_iff {cs : List Char} :
    numberList? cs = none ↔ ∃ w ∈ Text.words isListSeparator cs, finiteNumber? w = none := by
  unfold numberList?
  induction Text.words isListSeparator cs with
  | nil => simp
  | cons w ws ih =>
    rw [List.mapM_cons]
    cases hw : finiteNumber? w with
    | none => simp [hw]
    | some x =>
      cases hws : ws.mapM finiteNumber? with
      | none => simpa [hw, hws] using ih
      | some xs => simpa [hw, hws] using ih

end SvgDisplayList
