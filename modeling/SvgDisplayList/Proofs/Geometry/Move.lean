import Mathlib.Data.List.TakeWhile
import SvgDisplayList.Geometry.TransformList
import SvgDisplayList.Proofs.Number.SinglePrecision
import SvgDisplayList.Proofs.Text.Pieces

/-!
# Moves as matrices and as transform lists

Matrices agree if their entries do (`Matrix.Agrees`), and products of matrices that agree agree.  A
finite move agrees with its product with the identity (`Matrix.Agrees.identity_mul_translate`),
which is what the transform list `translate(x,y)` denotes (`Matrix.ofTransformList_moveText`).

The second statement is about texts: a numeral has no character that separates, so that a list of
two numerals is read as the two numbers.
-/

namespace SvgDisplayList

/-! ## Matrices up to the sign of zero -/

namespace Matrix

/-- The entries of two matrices agree. -/
structure Agrees (m n : Matrix) : Prop where
  a : Binary32.Agrees m.a n.a
  b : Binary32.Agrees m.b n.b
  c : Binary32.Agrees m.c n.c
  d : Binary32.Agrees m.d n.d
  e : Binary32.Agrees m.e n.e
  f : Binary32.Agrees m.f n.f

namespace Agrees

variable {m m' n n' : Matrix}

/-- A matrix agrees with itself. -/
lemma refl (m : Matrix) : Agrees m m := ⟨.refl _, .refl _, .refl _, .refl _, .refl _, .refl _⟩

/-- Agreement goes both ways. -/
lemma symm (h : Agrees m n) : Agrees n m :=
  ⟨h.a.symm, h.b.symm, h.c.symm, h.d.symm, h.e.symm, h.f.symm⟩

/-- Products of matrices that agree agree. -/
theorem mul (hm : Agrees m m') (hn : Agrees n n') : Agrees (m.mul n) (m'.mul n') where
  a := (hm.a.mul hn.a).add (hm.c.mul hn.b)
  b := (hm.b.mul hn.a).add (hm.d.mul hn.b)
  c := (hm.a.mul hn.c).add (hm.c.mul hn.d)
  d := (hm.b.mul hn.c).add (hm.d.mul hn.d)
  e := ((hm.a.mul hn.e).add (hm.c.mul hn.f)).add hm.e
  f := ((hm.b.mul hn.e).add (hm.d.mul hn.f)).add hm.f

/-- A finite move agrees with its product with the identity. -/
theorem identity_mul_translate {x y : Float32} (hx : x.isFinite = true) (hy : y.isFinite = true) :
    Agrees (identity.mul (translate x y)) (translate x y) where
  a := Or.inl (show (1 : Float32) * 1 + 0 * 0 = 1 by decide)
  b := Or.inl (show (0 : Float32) * 1 + 1 * 0 = 0 by decide)
  c := Or.inl (show (1 : Float32) * 0 + 0 * 1 = 0 by decide)
  d := Or.inl (show (0 : Float32) * 0 + 1 * 1 = 1 by decide)
  e := by
    have hsum : Binary32.Agrees (1 * x + 0 * y + 0) (x + 0 + 0) := by
      rw [Binary32.one_mul]
      exact ((Binary32.Agrees.refl x).add (Binary32.zero_mul hy)).add (.refl 0)
    exact hsum.trans ((Binary32.add_zero _).trans (Binary32.add_zero x))
  f := by
    have hsum : Binary32.Agrees (0 * x + 1 * y + 0) (0 + y + 0) := by
      rw [Binary32.one_mul]
      exact ((Binary32.zero_mul hx).add (.refl y)).add (.refl 0)
    exact hsum.trans ((Binary32.add_zero _).trans (Binary32.zero_add y))

end Agrees

end Matrix

/-! ## Numerals -/

namespace Decimal

/-- The characters of numerals. -/
def IsNumeral (c : Char) : Prop := isDigit c = true ∨ c ∈ ['+', '-', '.', 'e', 'E']

/-- A sign in front is of numerals, if the rest is. -/
lemma isNumeral_of_splitSign {cs : List Char} (h : ∀ c ∈ (splitSign cs).2, IsNumeral c) :
    ∀ c ∈ cs, IsNumeral c := by
  unfold splitSign at h
  split at h
  · exact List.forall_mem_cons.mpr ⟨Or.inr (by decide), h⟩
  · exact List.forall_mem_cons.mpr ⟨Or.inr (by decide), h⟩
  · exact h

/-- An exponent is made of characters of numerals. -/
lemma isNumeral_of_exponentOf? {cs : List Char} {e : Int} (h : exponentOf? cs = some e) :
    ∀ c ∈ cs, IsNumeral c := by
  cases cs with
  | nil => simp
  | cons c r =>
    unfold exponentOf? at h
    dsimp only at h
    by_cases hletter : c = 'e' ∨ c = 'E'
    case neg => simp [hletter] at h
    by_cases hdigits : ((splitSign r).2.isEmpty || !(splitSign r).2.all isDigit) = true
    case pos => simp [hletter, hdigits] at h
    have hds : ∀ x ∈ (splitSign r).2, isDigit x = true := by
      rw [Bool.or_eq_true, not_or, Bool.not_eq_true', Bool.not_eq_false,
        List.all_eq_true] at hdigits
      exact hdigits.2
    refine List.forall_mem_cons.mpr
      ⟨Or.inr ?_, isNumeral_of_splitSign fun x hx => Or.inl (hds x hx)⟩
    rcases hletter with rfl | rfl <;> decide

/-- A fraction is made of characters of numerals, if what follows it is. -/
lemma isNumeral_of_splitFraction {cs : List Char} (h : ∀ c ∈ (splitFraction cs).2, IsNumeral c) :
    ∀ c ∈ cs, IsNumeral c := by
  unfold splitFraction at h
  split at h
  · rename_i r
    refine List.forall_mem_cons.mpr ⟨Or.inr (by decide), fun c hc => ?_⟩
    rw [← List.takeWhile_append_dropWhile (p := isDigit) (l := r)] at hc
    exact (List.mem_append.mp hc).elim (fun hc => Or.inl (List.mem_takeWhile_imp hc)) (h c)
  · exact h

/-- A numeral is made of characters of numerals, and there are some. -/
lemma isNumeral_of_ofChars? {cs : List Char} {d : Decimal} (h : ofChars? cs = some d) :
    cs ≠ [] ∧ ∀ c ∈ cs, IsNumeral c := by
  refine ⟨?_, isNumeral_of_splitSign fun c hc => ?_⟩
  · rintro rfl
    cases h
  unfold ofChars? at h
  dsimp only at h
  split_ifs at h
  obtain ⟨e, he, -⟩ := Option.map_eq_some_iff.mp h
  rw [← List.takeWhile_append_dropWhile (p := isDigit) (l := (splitSign cs).2)] at hc
  rcases List.mem_append.mp hc with hc | hc
  · exact Or.inl (List.mem_takeWhile_imp hc)
  · exact isNumeral_of_splitFraction (isNumeral_of_exponentOf? he) c hc

/-- No character of a numeral separates, is a blank or is a parenthesis. -/
lemma IsNumeral.spec {c : Char} (h : IsNumeral c) :
    isListSeparator c = false ∧ Text.isBlank c = false ∧ c ≠ '(' ∧ c ≠ ')' := by
  rcases h with h | h
  · have hrange : 48 ≤ c.toNat ∧ c.toNat ≤ 57 := by
      simpa [isDigit, Char.le_def, UInt32.le_iff_toNat_le] using h
    have hblank : Text.isBlank c = false := by
      unfold Text.isBlank
      simp only [Bool.or_eq_false_iff, Bool.and_eq_false_iff, decide_eq_false_iff_not,
        beq_eq_false_iff_ne]
      omega
    have hne : ∀ x : Char, x.toNat < 48 → c ≠ x := by
      rintro x hx rfl
      omega
    refine ⟨?_, hblank, hne '(' (by decide), hne ')' (by decide)⟩
    rw [isListSeparator, hblank, Bool.false_or, beq_eq_false_iff_ne]
    exact hne ',' (by decide)
  · simp only [List.mem_cons, List.not_mem_nil, or_false] at h
    rcases h with rfl | rfl | rfl | rfl | rfl <;> decide

end Decimal

/-- What is read as a finite number is a numeral, and finite. -/
lemma finiteNumber?_spec {cs : List Char} {v : Float32} (h : finiteNumber? cs = some v) :
    cs ≠ [] ∧ (∀ c ∈ cs, Decimal.IsNumeral c) ∧ v.isFinite = true := by
  unfold finiteNumber? at h
  split at h
  · rename_i d hd
    obtain ⟨hne, hcs⟩ := Decimal.isNumeral_of_ofChars? hd
    dsimp only at h
    split_ifs at h with hfinite
    exact ⟨hne, hcs, Option.some.inj h ▸ hfinite⟩
  · cases h

/-- Two numerals with a comma between them are read as two numbers. -/
lemma numberList?_pair {xs ys : List Char} {x y : Float32} (hx : finiteNumber? xs = some x)
    (hy : finiteNumber? ys = some y) : numberList? (xs ++ ',' :: ys) = some [x, y] := by
  obtain ⟨hxs, hxs', -⟩ := finiteNumber?_spec hx
  obtain ⟨hys, hys', -⟩ := finiteNumber?_spec hy
  have hwords : Text.words isListSeparator (xs ++ ',' :: ys) = [xs, ys] := by
    unfold Text.words
    rw [Text.pieces_append (fun c hc => (hxs' c hc).spec.1) (by decide),
      Text.pieces_eq_singleton fun c hc => (hys' c hc).spec.1]
    simp [hxs, hys]
  unfold numberList?
  simp [hwords, hx, hy]

/-! ## Reading a move -/

namespace TransformList

/-- The first function of a text is cut out at its parentheses. -/
lemma next?_eq {cs name arguments r₁ r₂ : List Char}
    (h₁ : Text.splitAt? (· == '(') cs = some (name, r₁))
    (h₂ : Text.splitAt? (· == ')') r₁ = some (arguments, r₂)) :
    (next? cs).map (fun n => (n.1, n.2.1)) =
      some (⟨Text.trim name, arguments⟩, r₂.dropWhile isListSeparator) := by
  unfold next?
  split
  · rename_i h
    rw [h] at h₁
    cases h₁
  · rename_i name' r₁' h
    obtain ⟨rfl, rfl⟩ := Prod.mk.inj (Option.some.inj (h₁.symm.trans h))
    split
    · rename_i h'
      rw [h'] at h₂
      cases h₂
    · rename_i arguments' r₂' h'
      obtain ⟨rfl, rfl⟩ := Prod.mk.inj (Option.some.inj (h₂.symm.trans h'))
      rfl

/-- A text of one function is the map of that function. -/
lemma composeFrom_single {m n : Matrix} {cs : List Char} {call : Call} (hcs : cs ≠ [])
    (hnext : (next? cs).map (fun n => (n.1, n.2.1)) = some (call, [])) (hn : call.matrix = .ok n) :
    composeFrom m cs = .ok (m.mul n) := by
  obtain ⟨⟨call', rest⟩, hcall, heq⟩ := Option.map_eq_some_iff.mp hnext
  obtain ⟨rfl, hrest⟩ := Prod.mk.inj heq
  rw [composeFrom, if_neg (by simpa using hcs), hcall]
  simp only [hn]
  rw [hrest, composeFrom, List.isEmpty_nil, if_pos rfl]

end TransformList

/-- The transform list that moves by two numbers. -/
def moveText (x y : String) : String := "translate(" ++ x ++ "," ++ y ++ ")"

/-- A move is read as the product of the identity and the move. -/
theorem Matrix.ofTransformList_moveText {xs ys : String} {x y : Float32}
    (hx : finiteNumber? xs.toList = some x) (hy : finiteNumber? ys.toList = some y) :
    ofTransformList (moveText xs ys) = .ok (identity.mul (translate x y)) := by
  let arguments := xs.toList ++ ',' :: ys.toList
  have htext : (moveText xs ys).toList = 't' :: ("ranslate(".toList ++ arguments ++ [')']) := by
    simp [moveText, arguments]
  have htrim : Text.trim (moveText xs ys).toList =
      "translate".toList ++ '(' :: (arguments ++ ')' :: []) := by
    rw [htext, Text.trim_eq_self (by decide) (by decide)]
    simp
  have harguments : ∀ c ∈ arguments, (c == ')') = false := by
    intro c hc
    rw [beq_eq_false_iff_ne]
    rcases List.mem_append.mp hc with hc | hc
    · exact ((finiteNumber?_spec hx).2.1 c hc).spec.2.2.2
    · rcases List.mem_cons.mp hc with rfl | hc
      · decide
      · exact ((finiteNumber?_spec hy).2.1 c hc).spec.2.2.2
  have hname : ∀ c ∈ "translate".toList, (c == '(') = false := by simp
  unfold ofTransformList
  rw [htrim]
  refine TransformList.composeFrom_single (by simp)
    (TransformList.next?_eq (Text.splitAt?_append hname (by decide))
      (Text.splitAt?_append harguments (by decide))) ?_
  unfold TransformList.Call.matrix
  simp only [arguments, numberList?_pair hx hy]
  rfl

end SvgDisplayList
