import Mathlib.Data.List.TakeWhile
import Mathlib.Tactic.FinCases
import Mathlib.Tactic.Lemma
import Mathlib.Tactic.Push
import Mathlib.Tactic.SplitIfs
import SvgDisplayList.PathData.Scanner

/-!
# The numerals of path data

A numeral is a sign or none, digits with at most one point among or around them, and an exponent or
none (`PathData.Numeral`).  The scanner takes numerals from the front of a text, and as much of the
text as it can: what it leaves does not begin with a character that would continue the numeral
(`Numeral.EndsBefore`).  Both directions are in `PathData.numeral?_eq_some_iff`.

Every numeral has a value, and that is the value that is read from its characters
(`Numeral.ofChars?_chars`), so that a numeral is refused only if it is too large.
-/

namespace SvgDisplayList

namespace PathData

/-! ## Numerals -/

/-- A sign, or none. -/
inductive Sign where
  | none
  | plus
  | minus
deriving DecidableEq

/-- The characters of a sign. -/
def Sign.chars : Sign → List Char
  | none => []
  | plus => ['+']
  | minus => ['-']

/-- A letter `e`, a sign or none, and digits. -/
structure Exponent where
  letter : Char
  sign : Sign
  digits : List Char
  letter_eq : letter = 'e' ∨ letter = 'E'
  digits_ne_nil : digits ≠ []
  isDigit : ∀ c ∈ digits, Decimal.isDigit c = true

namespace Exponent

/-- The characters of an exponent. -/
def chars (e : Exponent) : List Char := e.letter :: (e.sign.chars ++ e.digits)

/-- The number that an exponent is. -/
def value (e : Exponent) : Int :=
  if e.sign = .minus then -(Decimal.digitsValue e.digits : Int) else Decimal.digitsValue e.digits

end Exponent

/-- A sign or none, digits, a point with digits behind it or none, an exponent or none.  There is a
digit before or behind the point. -/
structure Numeral where
  sign : Sign
  whole : List Char
  fraction? : Option (List Char)
  exponent? : Option Exponent
  isDigit_whole : ∀ c ∈ whole, Decimal.isDigit c = true
  isDigit_fraction : ∀ ds ∈ fraction?, ∀ c ∈ ds, Decimal.isDigit c = true
  hasDigit : whole ≠ [] ∨ ∃ ds ∈ fraction?, ds ≠ []

namespace Numeral

/-- The digits behind the point. -/
def fraction (n : Numeral) : List Char := n.fraction?.getD []

/-- The point and the digits behind it. -/
def fractionChars (n : Numeral) : List Char := (n.fraction?.map ('.' :: ·)).getD []

/-- The characters of the exponent. -/
def exponentChars (n : Numeral) : List Char := (n.exponent?.map Exponent.chars).getD []

/-- The characters of a numeral. -/
def chars (n : Numeral) : List Char :=
  n.sign.chars ++ (n.whole ++ (n.fractionChars ++ n.exponentChars))

/-- The exact value of a numeral. -/
def decimal (n : Numeral) : Decimal where
  negative := n.sign == .minus
  coefficient := Decimal.digitsValue (n.whole ++ n.fraction)
  exponent := (n.exponent?.map Exponent.value).getD 0 - n.fraction.length

/-- The single-precision number nearest to a numeral. -/
def value (n : Numeral) : Float32 := n.decimal.toBinary32

/-- Whether a numeral goes on with a character: a digit continues every numeral, a point one that
has neither a point nor an exponent, a letter `e` one that has no exponent. -/
def GoesOnWith (n : Numeral) (c : Char) : Prop :=
  Decimal.isDigit c = true ∨ (c = '.' ∧ n.fraction? = none ∧ n.exponent? = none) ∨
    ((c = 'e' ∨ c = 'E') ∧ n.exponent? = none)

/-- Whether a numeral ends before a text. -/
def EndsBefore (n : Numeral) (rest : List Char) : Prop := ∀ c ∈ rest.head?, ¬ n.GoesOnWith c

end Numeral

/-! ## Runs of a class of characters -/

section Runs

variable {p : Char → Bool} {run rest cs : List Char}

/-- A run of a class is taken as a whole if the text behind it begins with another class. -/
lemma takeWhile_append_eq (hrun : ∀ c ∈ run, p c = true) (hrest : ∀ c ∈ rest.head?, p c = false) :
    (run ++ rest).takeWhile p = run := by
  rw [List.takeWhile_append_of_pos hrun]
  have hnone : rest.takeWhile p = [] := by
    cases rest with
    | nil => rfl
    | cons c cs => rw [List.takeWhile_cons_of_neg (by simpa using hrest c rfl)]
  rw [hnone, List.append_nil]

/-- A run of a class is dropped as a whole if the text behind it begins with another class. -/
lemma dropWhile_append_eq (hrun : ∀ c ∈ run, p c = true) (hrest : ∀ c ∈ rest.head?, p c = false) :
    (run ++ rest).dropWhile p = rest := by
  rw [List.dropWhile_append_of_pos hrun]
  cases rest with
  | nil => rfl
  | cons c cs => rw [List.dropWhile_cons_of_neg (by simpa using hrest c rfl)]

/-- What is left behind a run begins with another class. -/
lemma head?_dropWhile_eq_false : ∀ c ∈ (cs.dropWhile p).head?, p c = false := by
  intro c hc
  have hhead := List.head?_dropWhile_not p cs
  rw [Option.mem_def] at hc
  rw [hc] at hhead
  simpa using hhead

end Runs

/-! ## The parts of a numeral -/

/-- Signs, points and the letters of exponents are no digits. -/
lemma not_isDigit_of_mem {c : Char} (hc : c ∈ ['+', '-', '.', 'e', 'E']) :
    Decimal.isDigit c = false := by
  fin_cases hc <;> rfl

/-- The sign at the front of a text, if what follows it does not begin with one. -/
lemma signPrefix_append {s : Sign} {rest : List Char}
    (hrest : ∀ c ∈ rest.head?, c ≠ '+' ∧ c ≠ '-') :
    signPrefix (s.chars ++ rest) = (s.chars, rest) := by
  cases s with
  | plus | minus => rfl
  | none =>
    change signPrefix rest = ([], rest)
    unfold signPrefix
    split
    · exact absurd rfl (hrest '+' rfl).1
    · exact absurd rfl (hrest '-' rfl).2
    · rfl

/-- What is taken for a sign is a sign. -/
lemma exists_signPrefix {cs taken rest : List Char} (h : signPrefix cs = (taken, rest)) :
    ∃ s : Sign, taken = s.chars ∧ cs = taken ++ rest := by
  unfold signPrefix at h
  split at h <;> cases h
  · exact ⟨.plus, rfl, rfl⟩
  · exact ⟨.minus, rfl, rfl⟩
  · exact ⟨.none, rfl, rfl⟩

/-- The exponent at the front of a text. -/
lemma exponentPrefix?_append {e : Exponent} {rest : List Char}
    (hrest : ∀ c ∈ rest.head?, Decimal.isDigit c = false) :
    exponentPrefix? (e.chars ++ rest) = some (e.chars, rest) := by
  have hsign : signPrefix (e.sign.chars ++ (e.digits ++ rest)) =
      (e.sign.chars, e.digits ++ rest) := by
    refine signPrefix_append fun c hc => ?_
    obtain ⟨d, ds, hds⟩ := List.exists_cons_of_ne_nil e.digits_ne_nil
    have hd : Decimal.isDigit d = true := e.isDigit d (hds ▸ List.mem_cons_self)
    obtain rfl : c = d := by simpa [hds] using hc.symm
    constructor <;> rintro rfl <;> exact absurd hd (by decide)
  unfold Exponent.chars
  rw [List.cons_append, exponentPrefix?, if_pos e.letter_eq, List.append_assoc]
  simp only [hsign, takeWhile_append_eq e.isDigit hrest, dropWhile_append_eq e.isDigit hrest]
  rw [if_neg (by simpa using e.digits_ne_nil)]

/-- What is taken for an exponent is one, or there is none and the text does not begin with a letter
`e`. -/
lemma exists_exponentPrefix? {cs taken rest : List Char}
    (h : exponentPrefix? cs = some (taken, rest)) :
    cs = taken ++ rest ∧
      ((∃ e : Exponent, taken = e.chars ∧ ∀ c ∈ rest.head?, Decimal.isDigit c = false) ∨
        (taken = [] ∧ ∀ c ∈ rest.head?, ¬ (c = 'e' ∨ c = 'E'))) := by
  cases cs with
  | nil =>
    cases h
    exact ⟨rfl, Or.inr ⟨rfl, fun c hc => by cases hc⟩⟩
  | cons c r =>
    rcases hsign : signPrefix r with ⟨signChars, digits⟩
    rw [exponentPrefix?] at h
    simp only [hsign] at h
    split_ifs at h with hletter hempty
    · cases h
      obtain ⟨s, rfl, rfl⟩ := exists_signPrefix hsign
      rw [List.isEmpty_iff] at hempty
      let e : Exponent := ⟨c, s, _, hletter, hempty, fun _ => List.mem_takeWhile_imp⟩
      refine ⟨?_, Or.inl ⟨e, rfl, head?_dropWhile_eq_false⟩⟩
      rw [List.cons_append, List.append_assoc, List.takeWhile_append_dropWhile]
    · cases h
      exact ⟨rfl, Or.inr ⟨rfl, fun d hd => by cases hd; exact hletter⟩⟩

/-! ## The longest numeral -/

namespace Numeral

variable (n : Numeral)

/-- The point and its digits at the front of a text. -/
lemma pointPrefix_append {rest : List Char}
    (hdigit : n.fraction? ≠ none → ∀ c ∈ rest.head?, Decimal.isDigit c = false)
    (hpoint : n.fraction? = none → ∀ c ∈ rest.head?, c ≠ '.') :
    pointPrefix (n.fractionChars ++ rest) = (n.fractionChars, rest) := by
  unfold fractionChars
  cases hf : n.fraction? with
  | none =>
    change pointPrefix rest = ([], rest)
    unfold pointPrefix
    split
    · exact absurd rfl (hpoint hf '.' rfl)
    · rfl
  | some ds =>
    have hds := n.isDigit_fraction ds hf
    have hrest := hdigit (by simp [hf])
    change pointPrefix ('.' :: (ds ++ rest)) = _
    rw [pointPrefix, takeWhile_append_eq hds hrest, dropWhile_append_eq hds hrest]
    rfl

/-- What follows the whole digits of a numeral begins with no digit, if the numeral ends. -/
lemma head?_fraction_exponent {rest : List Char} (h : n.EndsBefore rest) :
    ∀ c ∈ (n.fractionChars ++ (n.exponentChars ++ rest)).head?, Decimal.isDigit c = false := by
  intro c hc
  cases hf : n.fraction? with
  | some ds =>
    have hpoint : c = '.' := by simpa [fractionChars, hf] using hc.symm
    exact not_isDigit_of_mem (by simp [hpoint])
  | none =>
    cases he : n.exponent? with
    | some e =>
      have hletter : c = e.letter := by
        simpa [fractionChars, exponentChars, Exponent.chars, hf, he] using hc.symm
      rcases e.letter_eq with hl | hl <;> exact not_isDigit_of_mem (by simp [hletter, hl])
    | none =>
      have hmem : c ∈ rest.head? := by simpa [fractionChars, exponentChars, hf, he] using hc
      exact Bool.eq_false_iff.mpr fun hd => h c hmem (Or.inl hd)

/-- What follows the fraction of a numeral begins with no digit, and with no point if there is no
fraction. -/
lemma head?_exponent {rest : List Char} (h : n.EndsBefore rest) :
    ∀ c ∈ (n.exponentChars ++ rest).head?, Decimal.isDigit c = false ∧
      (n.fraction? = none → c ≠ '.') := by
  intro c hc
  cases he : n.exponent? with
  | some e =>
    have hletter : c = e.letter := by simpa [exponentChars, Exponent.chars, he] using hc.symm
    rcases e.letter_eq with hl | hl <;>
      exact ⟨not_isDigit_of_mem (by simp [hletter, hl]), fun _ => by simp [hletter, hl]⟩
  | none =>
    have hmem : c ∈ rest.head? := by simpa [exponentChars, he] using hc
    refine ⟨Bool.eq_false_iff.mpr fun hd => h c hmem (Or.inl hd), fun hf hpoint => ?_⟩
    exact h c hmem (Or.inr (Or.inl ⟨hpoint, hf, he⟩))

/-- A numeral begins with a sign, a digit or a point. -/
lemma head?_whole (rest : List Char) :
    ∀ c ∈ (n.whole ++ (n.fractionChars ++ rest)).head?,
      Decimal.isDigit c = true ∨ c = '.' := by
  intro c hc
  cases hw : n.whole with
  | cons d ds =>
    have hd : c = d := by simpa [hw] using hc.symm
    exact Or.inl (hd ▸ n.isDigit_whole d (hw ▸ List.mem_cons_self))
  | nil =>
    obtain ⟨ds, hf, -⟩ := n.hasDigit.resolve_left (fun hne => hne hw)
    rw [Option.mem_def] at hf
    exact Or.inr (by simpa [hw, fractionChars, hf] using hc.symm)

/-- The first character of a numeral, as the scanner looks ahead for it. -/
lemma startsNumber_head? (rest : List Char) :
    ∃ c cs, n.chars ++ rest = c :: cs ∧ startsNumber c = true := by
  have hwhole := n.head?_whole (n.exponentChars ++ rest)
  have hne : n.whole ++ (n.fractionChars ++ (n.exponentChars ++ rest)) ≠ [] := by
    intro hnil
    rw [List.append_eq_nil_iff, List.append_eq_nil_iff] at hnil
    obtain ⟨ds, hf, -⟩ := n.hasDigit.resolve_left (fun hne => hne hnil.1)
    rw [Option.mem_def] at hf
    simp [fractionChars, hf] at hnil
  unfold chars
  simp only [List.append_assoc]
  cases hs : n.sign with
  | plus => exact ⟨'+', _, rfl, rfl⟩
  | minus => exact ⟨'-', _, rfl, rfl⟩
  | none =>
    obtain ⟨c, cs, hcs⟩ := List.exists_cons_of_ne_nil hne
    refine ⟨c, cs, hcs, ?_⟩
    unfold startsNumber
    rcases hwhole c (by rw [hcs]; rfl) with hd | rfl
    · simp [hd]
    · rfl

/-- The sign of a numeral at the front of a text. -/
lemma signPrefix_chars {rest : List Char} :
    signPrefix (n.chars ++ rest) =
      (n.sign.chars, n.whole ++ (n.fractionChars ++ (n.exponentChars ++ rest))) := by
  unfold chars
  simp only [List.append_assoc]
  refine signPrefix_append fun c hc => ?_
  rcases n.head?_whole _ c hc with hd | rfl
  · constructor <;> rintro rfl <;> exact absurd hd (by decide)
  · exact ⟨by decide, by decide⟩

/-- There are digits, so that the scanner does not take the text for no numeral. -/
lemma not_isEmpty_digits : ¬ (n.whole.isEmpty && decide (n.fractionChars.length ≤ 1)) = true := by
  intro h
  rw [Bool.and_eq_true, List.isEmpty_iff, decide_eq_true_eq] at h
  obtain ⟨hw, hf⟩ := h
  obtain ⟨ds, hds, hne⟩ := n.hasDigit.resolve_left (fun hne => hne hw)
  rw [Option.mem_def] at hds
  simp only [fractionChars, hds, Option.map_some, Option.getD_some, List.length_cons] at hf
  exact hne (List.length_eq_zero_iff.mp (by omega))

/-- A numeral that ends before a text is taken from the front of both. -/
lemma numeral?_append {rest : List Char} (h : n.EndsBefore rest) :
    numeral? (n.chars ++ rest) = some (n.chars, rest) := by
  have hwhole := n.head?_fraction_exponent h
  have htail := n.head?_exponent h
  have hpoint : pointPrefix (n.fractionChars ++ (n.exponentChars ++ rest)) =
      (n.fractionChars, n.exponentChars ++ rest) :=
    n.pointPrefix_append (fun _ c hc => (htail c hc).1) fun hf c hc => (htail c hc).2 hf
  have hexponent : exponentPrefix? (n.exponentChars ++ rest) = some (n.exponentChars, rest) := by
    unfold exponentChars
    cases he : n.exponent? with
    | some e =>
      exact exponentPrefix?_append fun c hc => Bool.eq_false_iff.mpr fun hd => h c hc (Or.inl hd)
    | none =>
      change exponentPrefix? rest = some ([], rest)
      cases rest with
      | nil => rfl
      | cons c cs =>
        rw [exponentPrefix?, if_neg fun hletter => h c rfl (Or.inr (Or.inr ⟨hletter, he⟩))]
  unfold numeral?
  simp only [n.signPrefix_chars, takeWhile_append_eq n.isDigit_whole hwhole,
    dropWhile_append_eq n.isDigit_whole hwhole, hpoint, hexponent, Option.map_some]
  rw [if_neg n.not_isEmpty_digits]
  unfold chars
  simp only [List.append_assoc]

end Numeral

/-- What is taken for a point with digits is one, or there is none and the text does not begin with
a point. -/
lemma exists_pointPrefix {cs taken rest : List Char} (h : pointPrefix cs = (taken, rest)) :
    ∃ fraction? : Option (List Char), taken = (fraction?.map ('.' :: ·)).getD [] ∧
      cs = taken ++ rest ∧ (∀ ds ∈ fraction?, ∀ c ∈ ds, Decimal.isDigit c = true) ∧
      (fraction? = none → ∀ c ∈ rest.head?, c ≠ '.') ∧
      (fraction? ≠ none → ∀ c ∈ rest.head?, Decimal.isDigit c = false) := by
  unfold pointPrefix at h
  split at h
  · rename_i r
    cases h
    refine ⟨some (r.takeWhile Decimal.isDigit), rfl, ?_, ?_, fun hnone => ?_, fun _ => ?_⟩
    · rw [List.cons_append, List.takeWhile_append_dropWhile]
    · intro ds hds c hc
      cases hds
      exact List.mem_takeWhile_imp hc
    · cases hnone
    · exact head?_dropWhile_eq_false
  · rename_i hpoint
    cases h
    refine ⟨none, rfl, rfl, fun ds hds => (by cases hds), fun _ c hc heq => ?_,
      fun hsome => absurd rfl hsome⟩
    cases cs with
    | nil => cases hc
    | cons d ds =>
      cases hc
      exact hpoint ds (heq ▸ rfl)

/-- What is taken from the front of a text is a numeral that ends before the rest. -/
lemma exists_numeral {cs token rest : List Char} (h : numeral? cs = some (token, rest)) :
    ∃ n : Numeral, token = n.chars ∧ cs = n.chars ++ rest ∧ n.EndsBefore rest := by
  rcases hsign : signPrefix cs with ⟨signChars, r⟩
  rcases hpoint : pointPrefix (r.dropWhile Decimal.isDigit) with ⟨fractionChars, tail⟩
  unfold numeral? at h
  simp only [hsign, hpoint] at h
  split_ifs at h with hempty
  obtain ⟨⟨exponentChars, rest'⟩, hexponent, heq⟩ := Option.map_eq_some_iff.mp h
  obtain ⟨rfl, rfl⟩ := Prod.mk.inj heq
  obtain ⟨s, hs, hcs⟩ := exists_signPrefix hsign
  have hr : r.takeWhile Decimal.isDigit ++ r.dropWhile Decimal.isDigit = r :=
    List.takeWhile_append_dropWhile
  have hwhole : ∀ c ∈ r.takeWhile Decimal.isDigit, Decimal.isDigit c = true :=
    fun c => List.mem_takeWhile_imp
  have hbehind : ∀ c ∈ (r.dropWhile Decimal.isDigit).head?, Decimal.isDigit c = false :=
    head?_dropWhile_eq_false
  obtain ⟨fraction?, hfraction, hsplit, hdigits, hnopoint, hstop⟩ := exists_pointPrefix hpoint
  obtain ⟨htail, hkind⟩ := exists_exponentPrefix? hexponent
  have hasDigit : r.takeWhile Decimal.isDigit ≠ [] ∨ ∃ ds ∈ fraction?, ds ≠ [] := by
    by_contra hcontra
    push Not at hcontra
    obtain ⟨hw, hf⟩ := hcontra
    refine hempty ?_
    rw [hw, hfraction]
    cases fraction? with
    | none => rfl
    | some ds =>
      rw [hf ds rfl]
      rfl
  -- with an exponent the rest begins with no digit; without one it is what follows the fraction
  rcases hkind with ⟨e, he, hrest⟩ | ⟨rfl, hrest⟩
  · let n : Numeral := ⟨s, _, fraction?, some e, hwhole, hdigits, hasDigit⟩
    have hchars : signChars ++ r.takeWhile Decimal.isDigit ++ fractionChars ++ exponentChars =
        n.chars := by
      simp [n, Numeral.chars, Numeral.fractionChars, Numeral.exponentChars, hs, hfraction, he]
    refine ⟨n, hchars, ?_, ?_⟩
    · rw [← hchars]
      simp only [List.append_assoc]
      rw [← htail, ← hsplit, hr, ← hcs]
    · rintro c hc (hd | ⟨-, -, hnone⟩ | ⟨-, hnone⟩)
      · exact absurd hd (by simp [hrest c hc])
      · cases hnone
      · cases hnone
  · let n : Numeral := ⟨s, _, fraction?, none, hwhole, hdigits, hasDigit⟩
    have hchars : signChars ++ r.takeWhile Decimal.isDigit ++ fractionChars ++ [] = n.chars := by
      simp [n, Numeral.chars, Numeral.fractionChars, Numeral.exponentChars, hs, hfraction]
    rw [List.nil_append] at htail
    subst htail
    refine ⟨n, hchars, ?_, ?_⟩
    · rw [← hchars]
      simp only [List.append_assoc, List.nil_append]
      rw [← hsplit, hr, ← hcs]
    · rintro c hc (hd | ⟨heq, hnone, -⟩ | ⟨hletter, -⟩)
      · cases fraction? with
        | some ds => exact absurd hd (by simp [hstop (by simp) c hc])
        | none =>
          -- there is no point either, so the rest is what follows the whole digits
          rw [hfraction] at hsplit
          exact absurd hd (by simp [hbehind c (by rw [hsplit]; exact hc)])
      · exact hnopoint hnone c hc heq
      · exact hrest c hc hletter

/-- The scanner takes a numeral that ends before the rest. -/
theorem numeral?_eq_some_iff {cs token rest : List Char} :
    numeral? cs = some (token, rest) ↔
      ∃ n : Numeral, token = n.chars ∧ cs = n.chars ++ rest ∧ n.EndsBefore rest := by
  constructor
  · exact exists_numeral
  · rintro ⟨n, rfl, rfl, h⟩
    exact n.numeral?_append h

/-! ## Values -/

namespace Numeral

/-- What follows the whole digits of a numeral begins with no digit. -/
lemma endsBefore_nil (n : Numeral) : n.EndsBefore [] := fun c hc => by cases hc

/-- The exponent that makes up a text has its value. -/
lemma exponentOf?_chars (e : Exponent) : Decimal.exponentOf? e.chars = some e.value := by
  obtain ⟨d, ds, hds⟩ := List.exists_cons_of_ne_nil e.digits_ne_nil
  have hd := e.isDigit d (hds ▸ List.mem_cons_self)
  have hall : e.digits.all Decimal.isDigit = true := List.all_eq_true.mpr e.isDigit
  have hempty : e.digits.isEmpty = false := by rw [hds]; rfl
  unfold Exponent.chars Exponent.value Decimal.exponentOf?
  dsimp only
  rw [if_pos e.letter_eq]
  cases e.sign with
  | plus => simp [Sign.chars, Decimal.splitSign, hall, hempty]
  | minus => simp [Sign.chars, Decimal.splitSign, hall, hempty]
  | none =>
    have hsplit : Decimal.splitSign e.digits = (false, e.digits) := by
      rw [hds]
      unfold Decimal.splitSign
      split
      · rename_i heq
        cases heq
        exact absurd hd (by decide)
      · rename_i heq
        cases heq
        exact absurd hd (by decide)
      · rfl
    simp [Sign.chars, hsplit, hall, hempty]

/-- The value of a numeral is read from its characters. -/
theorem ofChars?_chars (n : Numeral) : Decimal.ofChars? n.chars = some n.decimal := by
  have hwhole := n.head?_fraction_exponent n.endsBefore_nil
  have htail := n.head?_exponent n.endsBefore_nil
  rw [List.append_nil] at hwhole htail
  have hsign : Decimal.splitSign n.chars =
      (n.sign == .minus, n.whole ++ (n.fractionChars ++ n.exponentChars)) := by
    unfold chars
    cases hs : n.sign with
    | plus | minus => rfl
    | none =>
      have hhead := n.head?_whole n.exponentChars
      change Decimal.splitSign (n.whole ++ (n.fractionChars ++ n.exponentChars)) = (false, _)
      generalize n.whole ++ (n.fractionChars ++ n.exponentChars) = cs at hhead
      unfold Decimal.splitSign
      split
      · exact absurd (hhead '+' rfl) (by decide)
      · exact absurd (hhead '-' rfl) (by decide)
      · rfl
  have hfraction : Decimal.splitFraction (n.fractionChars ++ n.exponentChars) =
      (n.fraction, n.exponentChars) := by
    unfold fractionChars fraction
    cases hf : n.fraction? with
    | none =>
      change Decimal.splitFraction n.exponentChars = ([], _)
      unfold Decimal.splitFraction
      split
      · rename_i r heq
        exact absurd rfl ((htail '.' (by rw [heq]; rfl)).2 hf)
      · rfl
    | some ds =>
      have hds := n.isDigit_fraction ds hf
      have hrest : ∀ c ∈ n.exponentChars.head?, Decimal.isDigit c = false :=
        fun c hc => (htail c hc).1
      change Decimal.splitFraction ('.' :: (ds ++ n.exponentChars)) = _
      rw [Decimal.splitFraction, takeWhile_append_eq hds hrest, dropWhile_append_eq hds hrest]
      rfl
  have hexponent : Decimal.exponentOf? n.exponentChars =
      some ((n.exponent?.map Exponent.value).getD 0) := by
    unfold exponentChars
    cases n.exponent? with
    | none => rfl
    | some e => exact exponentOf?_chars e
  have hdigits : ¬ (n.whole.isEmpty && n.fraction.isEmpty) = true := by
    intro h
    rw [Bool.and_eq_true, List.isEmpty_iff, List.isEmpty_iff] at h
    obtain ⟨ds, hds, hne⟩ := n.hasDigit.resolve_left (fun hne => hne h.1)
    rw [Option.mem_def] at hds
    exact hne (by simpa [fraction, hds] using h.2)
  unfold Decimal.ofChars?
  simp only [hsign, takeWhile_append_eq n.isDigit_whole hwhole,
    dropWhile_append_eq n.isDigit_whole hwhole, hfraction, hexponent, Option.map_some]
  rw [if_neg hdigits]
  rfl

/-- A numeral is read as its value, if that is finite. -/
theorem finiteNumber?_chars (n : Numeral) :
    finiteNumber? n.chars = if n.value.isFinite then some n.value else none := by
  unfold finiteNumber?
  rw [n.ofChars?_chars]
  rfl

end Numeral

end PathData

end SvgDisplayList
