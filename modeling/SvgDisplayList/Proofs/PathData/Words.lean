import SvgDisplayList.Proofs.Number.Decimal
import SvgDisplayList.Proofs.PathData.Meaning
import SvgDisplayList.Text.Blank

/-!
# Path data in words

A text that makes up a finite number is a numeral of path data with the same value
(`PathData.exists_number_of_finiteNumber?`), and every finite number has such a numeral
(`PathData.exists_number`).  Letters and numerals with a space between each two of them write
themselves down (`PathData.written_join`), so that path data can be put together from words
(`PathData.ofPathData_join`).
-/

namespace SvgDisplayList

namespace PathData

/-! ## Numerals that make up a text -/

/-- The text behind a sign is the same for the reader of numbers and for the scanner. -/
lemma splitSign_snd (cs : List Char) : (Decimal.splitSign cs).2 = (signPrefix cs).2 := by
  unfold signPrefix Decimal.splitSign
  split <;> simp_all

/-- The sign that is split off a text is the one that the scanner takes from it. -/
lemma exists_splitSign (cs : List Char) : ∃ (s : Sign) (r : List Char),
    signPrefix cs = (s.chars, r) ∧ (Decimal.splitSign cs).2 = r ∧ cs = s.chars ++ r := by
  rcases hsign : signPrefix cs with ⟨taken, r⟩
  obtain ⟨s, rfl, hcs⟩ := exists_signPrefix hsign
  exact ⟨s, r, rfl, (splitSign_snd cs).trans (congrArg Prod.snd hsign), hcs⟩

/-- The fraction that is split off a text is the one that the scanner takes from it. -/
lemma exists_splitFraction (cs : List Char) : ∃ point digits r : List Char,
    pointPrefix cs = (point ++ digits, r) ∧ Decimal.splitFraction cs = (digits, r) ∧
      cs = point ++ (digits ++ r) ∧ (digits ≠ [] → point ≠ []) := by
  cases hpoint : cs.head? == some '.' with
  | true =>
    obtain ⟨r, rfl⟩ : ∃ r, cs = '.' :: r := by
      cases cs with
      | nil => cases hpoint
      | cons c r => exact ⟨r, by rw [Option.some.inj (beq_iff_eq.mp hpoint)]⟩
    refine ⟨['.'], _, _, rfl, rfl, ?_, fun _ => List.cons_ne_nil _ _⟩
    rw [List.takeWhile_append_dropWhile, List.singleton_append]
  | false =>
    have hne : ∀ r, cs ≠ '.' :: r := by
      rintro r rfl
      cases hpoint
    refine ⟨[], [], cs, ?_, ?_, rfl, fun h => absurd rfl h⟩
    · unfold pointPrefix
      split
      · exact absurd rfl (hne _)
      · rfl
    · unfold Decimal.splitFraction
      split
      · exact absurd rfl (hne _)
      · rfl

/-- An exponent that makes up a text is taken by the scanner as a whole. -/
lemma exponentPrefix?_of_exponentOf? {cs : List Char} {e : ℤ}
    (h : Decimal.exponentOf? cs = some e) : exponentPrefix? cs = some (cs, []) := by
  cases cs with
  | nil => rfl
  | cons c r =>
    obtain ⟨s, ds, hsigns, hsplit, rfl⟩ := exists_splitSign r
    unfold Decimal.exponentOf? at h
    dsimp only at h
    rw [hsplit] at h
    by_cases hletter : c = 'e' ∨ c = 'E'
    · rw [if_pos hletter] at h
      by_cases hempty : (ds.isEmpty || !ds.all Decimal.isDigit) = true
      · rw [if_pos hempty] at h
        cases h
      · rw [Bool.or_eq_true, not_or, Bool.not_eq_true', Bool.not_eq_false] at hempty
        obtain ⟨hne, hall⟩ := hempty
        have hdigits : ∀ d ∈ ds, Decimal.isDigit d = true := List.all_eq_true.mp hall
        have htake : ds.takeWhile Decimal.isDigit = ds := List.takeWhile_eq_self_iff.mpr hdigits
        have hdrop : ds.dropWhile Decimal.isDigit = [] := List.dropWhile_eq_nil_iff.mpr hdigits
        unfold exponentPrefix?
        dsimp only
        rw [if_pos hletter, hsigns]
        dsimp only
        rw [htake, hdrop, if_neg hne]
    · rw [if_neg hletter] at h
      cases h

/-- A numeral that makes up a text is taken by the scanner as a whole. -/
lemma numeral?_of_ofChars? {cs : List Char} {d : Decimal} (h : Decimal.ofChars? cs = some d) :
    numeral? cs = some (cs, []) := by
  obtain ⟨s, r, hsigns, hsplit, rfl⟩ := exists_splitSign cs
  obtain ⟨point, digits, rest, hpoint, hfraction, hrest, hdigits⟩ :=
    exists_splitFraction (r.dropWhile Decimal.isDigit)
  unfold Decimal.ofChars? at h
  dsimp only at h
  rw [hsplit, hfraction] at h
  dsimp only at h
  split_ifs at h with hempty
  obtain ⟨e, he, -⟩ := Option.map_eq_some_iff.mp h
  have hsome : ¬ ((r.takeWhile Decimal.isDigit).isEmpty &&
      decide ((point ++ digits).length ≤ 1)) = true := by
    rw [Bool.and_eq_true, List.isEmpty_iff, decide_eq_true_eq]
    rintro ⟨hwhole, hlength⟩
    have hne : digits ≠ [] := by
      rintro rfl
      exact hempty (by rw [hwhole]; rfl)
    have hpoint := List.length_pos_iff.mpr (hdigits hne)
    have hdigit := List.length_pos_iff.mpr hne
    rw [List.length_append] at hlength
    omega
  unfold numeral?
  rw [hsigns]
  dsimp only
  rw [hpoint]
  dsimp only
  rw [if_neg hsome, exponentPrefix?_of_exponentOf? he, Option.map_some]
  congr 2
  simp only [List.append_assoc]
  rw [← hrest, List.takeWhile_append_dropWhile]

/-- A text that is read as a number is a numeral of that value. -/
theorem exists_number_of_finiteNumber? {cs : List Char} {x : Float32}
    (h : finiteNumber? cs = some x) : ∃ n : Number, n.numeral.chars = cs ∧ n.value = x := by
  unfold finiteNumber? at h
  split at h
  · rename_i d hd
    obtain ⟨n, hchars, -⟩ := numeral?_eq_some_iff.mp (numeral?_of_ofChars? hd)
    have hdecimal : n.decimal = d := by
      rw [hchars, n.ofChars?_chars] at hd
      exact Option.some.inj hd
    dsimp only at h
    split_ifs at h with hfinite
    subst hdecimal
    exact ⟨⟨n, hfinite⟩, hchars.symm, Option.some.inj h⟩
  · cases h

/-! ## Numerals for numbers -/

/-- A fraction that is missing has no digits. -/
lemma isDigit_of_mem_none :
    ∀ ds ∈ (none : Option (List Char)), ∀ c ∈ ds, Decimal.isDigit c = true :=
  fun ds hds => absurd hds (Option.not_mem_none ds)

/-- The numeral of a number of digits of which some stand behind the point. -/
def Numeral.ofPlaces (negative : Bool) (coefficient places : Nat) : Numeral where
  sign := if negative then .minus else .none
  whole := Nat.toDigits 10 coefficient
  fraction? := none
  exponent? := some
    { letter := 'e'
      sign := .minus
      digits := Nat.toDigits 10 places
      letter_eq := Or.inl rfl
      digits_ne_nil := Nat.toDigits_ne_nil
      isDigit := Decimal.isDigit_of_mem_toDigits places }
  isDigit_whole := Decimal.isDigit_of_mem_toDigits coefficient
  isDigit_fraction := isDigit_of_mem_none
  hasDigit := Or.inl Nat.toDigits_ne_nil

/-- The decimal of such a numeral. -/
lemma Numeral.decimal_ofPlaces (negative : Bool) (coefficient places : Nat) :
    (ofPlaces negative coefficient places).decimal = ⟨negative, coefficient, -places⟩ := by
  have hcoefficient : Decimal.digitsValue (Nat.toDigits 10 coefficient ++ []) = coefficient := by
    rw [List.append_nil, Decimal.digitsValue_toDigits]
  have hplaces : Decimal.digitsValue (Nat.toDigits 10 places) = places :=
    Decimal.digitsValue_toDigits places
  have hexponent : -((Decimal.digitsValue (Nat.toDigits 10 places) : Nat) : Int) - (0 : Nat) =
      -places := by
    rw [hplaces]
    omega
  cases negative <;> exact congrArg₂ (Decimal.mk _) hcoefficient hexponent

/-- Every finite number has a numeral. -/
theorem exists_number {x : Float32} (hx : x.isFinite = true) : ∃ n : Number, n.value = x := by
  obtain ⟨negative, c, k, hread⟩ := Decimal.exists_toBinary32_eq hx
  have hvalue : (Numeral.ofPlaces negative c k).value = x := by
    rw [Numeral.value, Numeral.decimal_ofPlaces, hread]
  exact ⟨⟨.ofPlaces negative c k, hvalue ▸ hx⟩, hvalue⟩

/-! ## Words -/

/-- The text of a token. -/
def Token.text (t : Token) : String := String.ofList t.chars

/-- What may follow any token: nothing, a separator, or the letter of a command. -/
def Separates (rest : List Char) : Prop :=
  ∀ c ∈ rest.head?, isSeparator c = true ∨ ∃ k relative, c = Command.letter k relative

/-- Every token ends before a text that separates. -/
lemma Token.endsBefore_of_separates (t : Token) {rest : List Char} (h : Separates rest) :
    t.EndsBefore rest := by
  cases t with
  | letter => trivial
  | argument a =>
    cases a with
    | flag => trivial
    | number n =>
      intro c hc
      rcases h c hc with hsep | ⟨k, relative, rfl⟩
      · exact Numeral.not_goesOnWith_of_isSeparator hsep
      · exact n.numeral.not_goesOnWith_letter k relative

/-- Tokens with a space between each two of them are written down. -/
lemma written_join {ts : List Token} {rest : List Char} (h : Written ts rest)
    (hrest : Separates rest) (us : List Token) :
    Written (us ++ ts) ((Text.join " " (us.map Token.text)).toList ++ rest) := by
  have hnone : IsGap [] := fun c hc => by cases hc
  have hspace : IsGap [' '] := by simp [IsGap, isSeparator]
  induction us with
  | nil => exact h
  | cons u us ih =>
    cases us with
    | nil =>
      change Written (u :: ts) ((String.ofList u.chars).toList ++ rest)
      rw [String.toList_ofList]
      exact .cons hnone (u.endsBefore_of_separates hrest) h
    | cons v us =>
      have htext : (Text.join " " ((u :: v :: us).map Token.text)).toList ++ rest =
          u.chars ++ ([' '] ++ ((Text.join " " ((v :: us).map Token.text)).toList ++ rest)) := by
        change (u.text ++ " " ++ Text.join " " ((v :: us).map Token.text)).toList ++ rest = _
        rw [String.toList_append, String.toList_append, Token.text, String.toList_ofList]
        simp
      rw [htext]
      refine .cons hnone (u.endsBefore_of_separates fun c hc => ?_) (ih.gap_append hspace)
      cases hc
      exact Or.inl rfl

/-- Instructions as words, with instructions in another form behind them, are read and drawn. -/
theorem ofPathData_join_append (is : List Instruction) {js : List Instruction} {rest : List Char}
    (hmove : StartsWithMove (is ++ js)) (hjs : Written (js.flatMap Instruction.tokens) rest)
    (hrest : Separates rest) :
    Subpath.ofPathData
        (Text.join " " ((is.flatMap Instruction.tokens).map Token.text) ++ String.ofList rest) =
      .ok (Step.draw ((is ++ js).flatMap Instruction.steps)) := by
  have hwritten : Written ((is ++ js).flatMap Instruction.tokens)
      (Text.join " " ((is.flatMap Instruction.tokens).map Token.text) ++
        String.ofList rest).toList := by
    rw [List.flatMap_append, String.toList_append, String.toList_ofList]
    exact written_join hjs hrest _
  unfold Subpath.ofPathData
  rw [ofPathData_steps_iff.mpr ⟨is ++ js, hmove, hwritten, rfl⟩]
  rfl

/-- Instructions as words are read and drawn. -/
theorem ofPathData_join (is : List Instruction) (hmove : StartsWithMove is) :
    Subpath.ofPathData (Text.join " " ((is.flatMap Instruction.tokens).map Token.text)) =
      .ok (Step.draw (is.flatMap Instruction.steps)) := by
  have hnone : Written (([] : List Instruction).flatMap Instruction.tokens) [] :=
    .nil fun c hc => by cases hc
  have hread := ofPathData_join_append is (by rwa [List.append_nil]) hnone
    fun c hc => by cases hc
  rwa [List.append_nil, String.ofList_nil, String.append_empty] at hread

end PathData

end SvgDisplayList
