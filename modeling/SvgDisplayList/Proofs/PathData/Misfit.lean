import SvgDisplayList.Proofs.Geometry.Move
import SvgDisplayList.Proofs.PathData.Reading

/-!
# What is no argument

Where a number is sought, the text may start with a character that no number starts with, with a
numeral that breaks off before its digits or those of its exponent, or with a numeral that is too
large.  Where a flag is sought, every character but `0` and `1` is wrong.  Such a token is a
`PathData.Misfit`: it is refused whatever follows it, up to the one character behind it that the
scanner looks at (`Misfit.congr`).

Reading an argument fails exactly at a misfit, at a letter or at the end of the text, and the error
tells which (`Cursor.behind_eq_error_iff`).
-/

namespace SvgDisplayList

namespace PathData

/-! ## Kinds of arguments -/

/-- What an argument is. -/
inductive Kind where
  | number
  | flag
deriving DecidableEq

/-- The kind of an argument. -/
def Argument.kind : Argument → Kind
  | number _ => .number
  | flag _ => .flag

/-! ## Misfits -/

/-- A token in the place of an argument that is none, before a text of which only the first
character matters. -/
inductive Misfit : Kind → List Char → List Char → Prop where
  /-- No number starts with the character. -/
  | character {ch : Char} {tail : List Char} (hletter : isLetter ch = false)
      (hseparator : isSeparator ch = false) (hstart : startsNumber ch = false) :
      Misfit .number [ch] tail
  /-- There are no digits behind a sign or a point. -/
  | noDigits {s : Sign} {point : Bool} {tail : List Char} (hne : s ≠ .none ∨ point = true)
      (htail : ∀ c ∈ tail.head?, Decimal.isDigit c = false ∧ (point = false → c ≠ '.')) :
      Misfit .number (s.chars ++ if point then ['.'] else []) tail
  /-- There are no digits behind the letter of an exponent and its sign. -/
  | noExponent {n : Numeral} {e : Char} {s : Sign} {tail : List Char} (hn : n.exponent? = none)
      (he : e = 'e' ∨ e = 'E')
      (htail : ∀ c ∈ tail.head?, Decimal.isDigit c = false ∧ (s = .none → c ≠ '+' ∧ c ≠ '-')) :
      Misfit .number (n.chars ++ e :: s.chars) tail
  /-- The number is too large. -/
  | tooLarge {n : Numeral} {tail : List Char} (hvalue : n.value.isFinite = false)
      (hend : n.EndsBefore tail) : Misfit .number n.chars tail
  /-- The character is no flag. -/
  | noFlag {ch : Char} {tail : List Char} (hletter : isLetter ch = false)
      (hseparator : isSeparator ch = false) (hzero : ch ≠ '0') (hone : ch ≠ '1') :
      Misfit .flag [ch] tail

namespace Numeral

/-- Every digit is a numeral of its own. -/
lemma exists_chars_append (s : Sign) (point : Bool) :
    ∃ n : Numeral, n.chars = s.chars ++ (if point then ['.'] else []) ++ ['0'] := by
  have hzero : ∀ c ∈ ['0'], Decimal.isDigit c = true := by simp [Decimal.isDigit]
  cases point with
  | false =>
    refine ⟨⟨s, ['0'], none, none, hzero, fun ds hds => (by cases hds),
      .inl (List.cons_ne_nil _ _)⟩, ?_⟩
    simp [chars, fractionChars, exponentChars]
  | true =>
    refine ⟨⟨s, [], some ['0'], none, fun c hc => (by cases hc), fun ds hds => ?_,
      .inr ⟨['0'], rfl, List.cons_ne_nil _ _⟩⟩, ?_⟩
    · cases hds
      exact hzero
    · simp [chars, fractionChars, exponentChars]

/-- A numeral without an exponent has one with an exponent of any letter and sign. -/
lemma exists_chars_exponent (n : Numeral) (hn : n.exponent? = none) {e : Char}
    (he : e = 'e' ∨ e = 'E') (s : Sign) :
    ∃ m : Numeral, m.chars = n.chars ++ e :: (s.chars ++ ['0']) := by
  have hzero : ∀ c ∈ ['0'], Decimal.isDigit c = true := by simp [Decimal.isDigit]
  refine ⟨{ n with exponent? := some ⟨e, s, ['0'], he, List.cons_ne_nil _ _, hzero⟩ }, ?_⟩
  simp [chars, fractionChars, exponentChars, Exponent.chars, hn]

/-- A numeral is made of the characters of numerals. -/
lemma isNumeral_of_mem (n : Numeral) : ∀ c ∈ n.chars, Decimal.IsNumeral c :=
  (Decimal.isNumeral_of_ofChars? n.ofChars?_chars).2

/-- Behind a numeral without an exponent the scanner looks for one. -/
lemma numeral?_mantissa (n : Numeral) (hn : n.exponent? = none) {tail : List Char}
    (htail : ∀ c ∈ tail.head?, Decimal.isDigit c = false ∧ (n.fraction? = none → c ≠ '.')) :
    numeral? (n.chars ++ tail) =
      (exponentPrefix? tail).map fun (exponent, rest) => (n.chars ++ exponent, rest) := by
  have hnone : n.exponentChars = [] := by simp [exponentChars, hn]
  have hsign := @signPrefix_chars n tail
  rw [hnone, List.nil_append] at hsign
  have hwhole : ∀ c ∈ (n.fractionChars ++ tail).head?, Decimal.isDigit c = false := by
    intro c hc
    cases hf : n.fraction? with
    | some ds =>
      have hpoint : c = '.' := by simpa [fractionChars, hf] using hc.symm
      exact not_isDigit_of_mem (by simp [hpoint])
    | none => exact (htail c (by simpa [fractionChars, hf] using hc)).1
  have hpoint : pointPrefix (n.fractionChars ++ tail) = (n.fractionChars, tail) :=
    n.pointPrefix_append (fun _ c hc => (htail c hc).1) fun hf c hc => (htail c hc).2 hf
  unfold numeral?
  simp only [hsign, takeWhile_append_eq n.isDigit_whole hwhole,
    dropWhile_append_eq n.isDigit_whole hwhole, hpoint]
  rw [if_neg n.not_isEmpty_digits]
  simp [chars, hnone]

end Numeral

/-- The characters of numerals are neither separators nor letters of commands, and of one byte. -/
lemma isNumeral_spec {c : Char} (h : Decimal.IsNumeral c) :
    isSeparator c = false ∧ Command.ofLetter? c = none ∧ c.utf8Size = 1 := by
  rcases h with hdigit | hmem
  · obtain ⟨hletter, hseparator⟩ := isDigit_spec hdigit
    refine ⟨hseparator, Option.eq_none_iff_forall_ne_some.mpr fun k hk => ?_, ?_⟩
    · rw [Command.eq_letter_of_ofLetter? hk, (k.letter_spec _).1] at hletter
      cases hletter
    · have hrange : 48 ≤ c.toNat ∧ c.toNat ≤ 57 := by
        simpa [Decimal.isDigit, Char.le_def, UInt32.le_iff_toNat_le] using hdigit
      rw [Char.utf8Size, if_pos]
      rw [UInt32.le_iff_toNat_le]
      exact hrange.2.trans (by decide)
  · fin_cases hmem <;> decide

namespace Misfit

variable {kind : Kind} {token tail tail' : List Char}

/-- Only the first character behind a misfit matters. -/
lemma congr (h : Misfit kind token tail) (hhead : tail'.head? = tail.head?) :
    Misfit kind token tail' := by
  cases h with
  | character hletter hseparator hstart => exact .character hletter hseparator hstart
  | noDigits hne htail => exact .noDigits hne (hhead ▸ htail)
  | noExponent hn he htail => exact .noExponent hn he (hhead ▸ htail)
  | tooLarge hvalue hend => exact .tooLarge hvalue (by unfold Numeral.EndsBefore; rwa [hhead])
  | noFlag hletter hseparator hzero hone => exact .noFlag hletter hseparator hzero hone

/-- A misfit is a single character, or a numeral that may break off. -/
lemma eq_singleton_or_isPrefix (h : Misfit kind token tail) :
    (∃ ch, token = [ch] ∧ isSeparator ch = false) ∨ ∃ n : Numeral, token <+: n.chars := by
  cases h with
  | character _ hseparator | noFlag _ hseparator => exact .inl ⟨_, rfl, hseparator⟩
  | @noDigits s point =>
    obtain ⟨n, hn⟩ := Numeral.exists_chars_append s point
    exact .inr ⟨n, _, hn.symm⟩
  | @noExponent n e s _ hn he =>
    obtain ⟨m, hm⟩ := n.exists_chars_exponent hn he s
    exact .inr ⟨m, ['0'], by simp [hm]⟩
  | @tooLarge n => exact .inr ⟨n, List.prefix_refl _⟩

/-- A misfit starts with a character that is no letter. -/
lemma exists_head (h : Misfit kind token tail) :
    ∃ ch cs, token = ch :: cs ∧ isLetter ch = false := by
  cases h with
  | character hletter | noFlag hletter => exact ⟨_, [], rfl, hletter⟩
  | @noDigits s point _ hne =>
    cases s with
    | plus => exact ⟨'+', _, rfl, by decide⟩
    | minus => exact ⟨'-', _, rfl, by decide⟩
    | none =>
      obtain rfl := hne.resolve_left fun h => h rfl
      exact ⟨'.', [], rfl, by decide⟩
  | @noExponent n e s =>
    obtain ⟨ch, cs, hcs, hstart⟩ := n.startsNumber_head? (e :: s.chars)
    exact ⟨ch, cs, hcs, (startsNumber_spec hstart).1⟩
  | @tooLarge n =>
    obtain ⟨ch, cs, hcs, hstart⟩ := n.startsNumber_head? []
    exact ⟨ch, cs, by rwa [List.append_nil] at hcs, (startsNumber_spec hstart).1⟩

/-- No character of a misfit separates. -/
lemma not_isSeparator (h : Misfit kind token tail) : ∀ ch ∈ token, isSeparator ch = false := by
  rcases h.eq_singleton_or_isPrefix with ⟨c, rfl, hseparator⟩ | ⟨n, hn⟩
  · simpa using hseparator
  · exact fun ch hch => (isNumeral_spec (n.isNumeral_of_mem ch (hn.subset hch))).1

end Misfit

/-! ## Texts without a numeral -/

section

variable {s : Sign} {tail cs rest : List Char}

/-- A text of which nothing is taken does not begin with the class that is taken. -/
lemma head?_of_takeWhile_eq_nil {p : Char → Bool} (h : cs.takeWhile p = []) :
    ∀ c ∈ cs.head?, p c = false := by
  have hcs := @List.takeWhile_append_dropWhile _ p cs
  rw [h, List.nil_append] at hcs
  exact hcs ▸ @head?_dropWhile_eq_false p cs

/-- Without a sign a text does not begin with one. -/
lemma head?_of_signPrefix (h : signPrefix cs = ([], rest)) : ∀ c ∈ cs.head?, c ≠ '+' ∧ c ≠ '-' := by
  intro c hc
  obtain ⟨cs', rfl⟩ := List.head?_eq_some_iff.mp hc
  constructor <;> rintro rfl <;> cases h

/-- A sign and a point without digits are no numeral. -/
lemma numeral?_noDigits {point : Bool}
    (hsign : s = .none → point = false → ∀ c ∈ tail.head?, c ≠ '+' ∧ c ≠ '-')
    (htail : ∀ c ∈ tail.head?, Decimal.isDigit c = false ∧ (point = false → c ≠ '.')) :
    numeral? (s.chars ++ ((if point then ['.'] else []) ++ tail)) = none := by
  have hnone : ∀ c ∈ ([] : List Char), Decimal.isDigit c = true := fun c hc => by cases hc
  have htake := takeWhile_append_eq hnone fun c hc => (htail c hc).1
  have hdrop := dropWhile_append_eq hnone fun c hc => (htail c hc).1
  rw [List.nil_append] at htake hdrop
  cases point with
  | false =>
    have hprefix : signPrefix (s.chars ++ tail) = (s.chars, tail) := by
      cases s with
      | plus | minus => rfl
      | none => exact signPrefix_append (hsign rfl rfl)
    have hpoint : pointPrefix tail = ([], tail) := by
      unfold pointPrefix
      split
      · exact absurd rfl ((htail '.' rfl).2 rfl)
      · rfl
    simp [numeral?, hprefix, htake, hdrop, hpoint]
  | true =>
    have hprefix : signPrefix (s.chars ++ '.' :: tail) = (s.chars, '.' :: tail) := by
      refine signPrefix_append fun c hc => ?_
      cases hc
      exact ⟨by decide, by decide⟩
    have hdigit : ¬ Decimal.isDigit '.' = true := by decide
    simp [numeral?, hprefix, hdigit, pointPrefix, htake]

/-- An exponent without digits is none. -/
lemma exponentPrefix?_noDigits {e : Char} (he : e = 'e' ∨ e = 'E')
    (htail : ∀ c ∈ tail.head?, Decimal.isDigit c = false ∧ (s = .none → c ≠ '+' ∧ c ≠ '-')) :
    exponentPrefix? (e :: (s.chars ++ tail)) = none := by
  have hsign : signPrefix (s.chars ++ tail) = (s.chars, tail) := by
    cases s with
    | plus | minus => rfl
    | none => exact signPrefix_append fun c hc => (htail c hc).2 rfl
  have hnone : ∀ c ∈ ([] : List Char), Decimal.isDigit c = true := fun c hc => by cases hc
  have htake := takeWhile_append_eq hnone fun c hc => (htail c hc).1
  rw [List.nil_append] at htake
  rw [exponentPrefix?, if_pos he]
  simp [hsign, htake]

/-- Only an exponent without digits is none. -/
lemma exists_of_exponentPrefix?_eq_none (h : exponentPrefix? cs = none) :
    ∃ e s tail, cs = e :: (Sign.chars s ++ tail) ∧ (e = 'e' ∨ e = 'E') ∧
      ∀ c ∈ tail.head?, Decimal.isDigit c = false ∧ (s = .none → c ≠ '+' ∧ c ≠ '-') := by
  cases cs with
  | nil => cases h
  | cons e r =>
    rcases hsign : signPrefix r with ⟨signChars, tail⟩
    rw [exponentPrefix?] at h
    simp only [hsign] at h
    split_ifs at h with he hempty
    obtain ⟨s, rfl, rfl⟩ := exists_signPrefix hsign
    refine ⟨e, s, tail, rfl, he, fun c hc => ⟨?_, ?_⟩⟩
    · exact head?_of_takeWhile_eq_nil (List.isEmpty_iff.mp hempty) c hc
    · rintro rfl
      exact head?_of_signPrefix hsign c hc

end

/-- In the place of a number a misfit is no numeral, or that of a number that is not finite. -/
lemma Misfit.numeral?_bind {token tail : List Char} (h : Misfit .number token tail) :
    (numeral? (token ++ tail)).bind (fun taken => finiteNumber? taken.1) = none := by
  cases h with
  | @character ch _ _ _ hstart =>
    have hnone : numeral? (ch :: tail) = none := by
      simp only [startsNumber, Bool.or_eq_false_iff, beq_eq_false_iff_ne] at hstart
      obtain ⟨⟨⟨hdigit, hplus⟩, hminus⟩, hpoint⟩ := hstart
      refine @numeral?_noDigits .none _ false (fun _ _ c hc => ?_) fun c hc => ?_
      · cases hc
        exact ⟨hplus, hminus⟩
      · cases hc
        exact ⟨hdigit, fun _ => hpoint⟩
    rw [List.singleton_append, hnone, Option.bind_none]
  | noDigits hne htail =>
    rw [List.append_assoc, numeral?_noDigits (fun hs hpoint => ?_) htail, Option.bind_none]
    rcases hne with hne | hpoint'
    · exact absurd hs hne
    · rw [hpoint'] at hpoint
      cases hpoint
  | @noExponent n e s _ hn he htail =>
    have hletter : ∀ c ∈ (e :: (s.chars ++ tail)).head?, Decimal.isDigit c = false ∧
        (n.fraction? = none → c ≠ '.') := by
      intro c hc
      cases hc
      rcases he with rfl | rfl <;> exact ⟨by decide, fun _ => by decide⟩
    rw [List.append_assoc, List.cons_append, n.numeral?_mantissa hn hletter,
      exponentPrefix?_noDigits he htail]
    rfl
  | @tooLarge n _ hvalue hend =>
    rw [n.numeral?_append hend, Option.bind_some, n.finiteNumber?_chars, hvalue]
    rfl

/-- Every text starts with a sign or none, digits or none, and a point with digits or none. -/
lemma exists_mantissa (cs : List Char) :
    ∃ (s : Sign) (whole : List Char) (fraction? : Option (List Char)) (tail : List Char),
      cs = s.chars ++ (whole ++ ((fraction?.map ('.' :: ·)).getD [] ++ tail)) ∧
      (s = .none → ∀ c ∈ cs.head?, c ≠ '+' ∧ c ≠ '-') ∧
      (∀ c ∈ whole, Decimal.isDigit c = true) ∧
      (∀ ds ∈ fraction?, ∀ c ∈ ds, Decimal.isDigit c = true) ∧
      ∀ c ∈ tail.head?, Decimal.isDigit c = false ∧ (fraction? = none → c ≠ '.') := by
  rcases hsign : signPrefix cs with ⟨signChars, digits⟩
  rcases hpoint : pointPrefix (digits.dropWhile Decimal.isDigit) with ⟨pointChars, tail⟩
  obtain ⟨s, rfl, hcs⟩ := exists_signPrefix hsign
  obtain ⟨fraction?, rfl, hsplit, hfraction, hnopoint, hstop⟩ := exists_pointPrefix hpoint
  refine ⟨s, digits.takeWhile Decimal.isDigit, fraction?, tail, ?_, ?_,
    fun _ => List.mem_takeWhile_imp, hfraction, fun c hc => ?_⟩
  · rw [← hsplit, List.takeWhile_append_dropWhile, hcs]
  · rintro rfl
    exact head?_of_signPrefix hsign
  · cases fraction? with
    | none =>
      have hbehind : c ∈ (digits.dropWhile Decimal.isDigit).head? := by
        rw [hsplit]
        exact hc
      exact ⟨head?_dropWhile_eq_false c hbehind, fun _ => hnopoint rfl c hc⟩
    | some ds => exact ⟨hstop (by simp) c hc, fun hnone => by cases hnone⟩

/-- What is no numeral starts with a misfit, unless it starts with a letter or a separator. -/
lemma exists_misfit_of_numeral?_eq_none {ch : Char} {r : List Char} (hletter : isLetter ch = false)
    (hseparator : isSeparator ch = false) (h : numeral? (ch :: r) = none) :
    ∃ token tail, ch :: r = token ++ tail ∧ Misfit .number token tail := by
  obtain ⟨s, whole, fraction?, tail, hcs, hsign, hwhole, hfraction, htail⟩ :=
    exists_mantissa (ch :: r)
  by_cases hasDigit : whole ≠ [] ∨ ∃ ds ∈ fraction?, ds ≠ []
  · let n : Numeral := ⟨s, whole, fraction?, none, hwhole, hfraction, hasDigit⟩
    have hn : ch :: r = n.chars ++ tail := by
      rw [hcs]
      simp [n, Numeral.chars, Numeral.fractionChars, Numeral.exponentChars]
    rw [hn, n.numeral?_mantissa rfl htail, Option.map_eq_none_iff] at h
    obtain ⟨e, s', tail', rfl, he, htail'⟩ := exists_of_exponentPrefix?_eq_none h
    exact ⟨_, tail', by simpa using hn, @Misfit.noExponent n e s' tail' rfl he htail'⟩
  · push Not at hasDigit
    obtain ⟨rfl, hempty⟩ := hasDigit
    cases fraction? with
    | some ds =>
      obtain rfl := hempty ds rfl
      have hmisfit := @Misfit.noDigits s true tail (.inr rfl) fun c hc =>
        ⟨(htail c hc).1, fun hfalse => by cases hfalse⟩
      exact ⟨_, tail, by simpa using hcs, hmisfit⟩
    | none =>
      change ch :: r = s.chars ++ tail at hcs
      by_cases hs : s = .none
      · -- without a sign the first character is not one that a number starts with
        subst hs
        obtain rfl : ch :: r = tail := hcs
        obtain ⟨hdigit, hpoint⟩ := htail ch rfl
        obtain ⟨hplus, hminus⟩ := hsign rfl ch rfl
        have hstart : startsNumber ch = false := by
          simp [startsNumber, hdigit, hplus, hminus, hpoint rfl]
        exact ⟨[ch], r, rfl, .character hletter hseparator hstart⟩
      · have hmisfit := @Misfit.noDigits s false tail (.inl hs) fun c hc =>
          ⟨(htail c hc).1, fun _ => (htail c hc).2 rfl⟩
        exact ⟨_, tail, by simpa using hcs, hmisfit⟩

/-- What is read as no finite number starts with a misfit, unless it starts with a letter or a
separator. -/
lemma exists_misfit {ch : Char} {r : List Char} (hletter : isLetter ch = false)
    (hseparator : isSeparator ch = false)
    (h : (numeral? (ch :: r)).bind (fun taken => finiteNumber? taken.1) = none) :
    ∃ token tail, ch :: r = token ++ tail ∧ Misfit .number token tail := by
  cases hnumeral : numeral? (ch :: r) with
  | none => exact exists_misfit_of_numeral?_eq_none hletter hseparator hnumeral
  | some taken =>
    rw [hnumeral, Option.bind_some] at h
    obtain ⟨n, htoken, hcs, hend⟩ := numeral?_eq_some_iff.mp hnumeral
    rw [htoken, n.finiteNumber?_chars] at h
    split_ifs at h with hvalue
    exact ⟨n.chars, taken.2, hcs, .tooLarge (Bool.eq_false_iff.mpr hvalue) hend⟩

/-! ## Errors of arguments -/

namespace Cursor

/-- The cursor behind an argument of a kind. -/
def behind (letter : Char) (c : Cursor) : Kind → Except PathError Cursor
  | .number => (·.2) <$> c.number letter
  | .flag => (·.2) <$> c.flag letter

end Cursor

/-- What is wrong in the place of an argument: the text ends, there is a letter, or a misfit. -/
inductive NoArgument (kind : Kind) (letter : Char) (offset : Nat) :
    List Char → List Char → PathError → Prop where
  | nothing : NoArgument kind letter offset [] [] (.missingCoordinates letter offset)
  | letter {ch : Char} {tail : List Char} (h : isLetter ch = true) :
      NoArgument kind letter offset [ch] tail (.missingCoordinates letter offset)
  | misfit {token tail : List Char} (h : Misfit kind token tail) :
      NoArgument kind letter offset token tail (.invalidNumber offset)

/-- What is done with a result does not change an error. -/
lemma map_eq_error_iff {ε α β : Type} {f : α → β} {x : Except ε α} {e : ε} :
    f <$> x = .error e ↔ x = .error e := by
  cases x <;> simp

/-- Letters do not separate. -/
lemma not_isSeparator_of_isLetter {ch : Char} (h : isLetter ch = true) :
    isSeparator ch = false := by
  rw [Bool.eq_false_iff]
  intro hseparator
  simp only [isSeparator, Bool.or_eq_true, beq_iff_eq] at hseparator
  rcases hseparator with (((rfl | rfl) | rfl) | rfl) | rfl <;> exact absurd h (by decide)

namespace Cursor

variable {kind : Kind} {letter ch : Char} {offset : Nat} {c : Cursor} {r gap token tail : List Char}
  {e : PathError}

/-- A number is refused at a character that is no letter if no finite number is taken there. -/
lemma number_eq_error_iff (hat : c.atToken = ⟨offset, ch :: r⟩) (hletter : isLetter ch = false) :
    c.number letter = .error e ↔
      (numeral? (ch :: r)).bind (fun taken => finiteNumber? taken.1) = none ∧
        e = .invalidNumber offset := by
  unfold number
  rw [hat]
  simp only [hletter, Bool.false_eq_true, if_false]
  cases hnumeral : numeral? (ch :: r) with
  | none => simp [eq_comm]
  | some taken =>
    cases hfinite : finiteNumber? taken.1 with
    | none => simp [hfinite, eq_comm]
    | some x => simp [hfinite]

/-- A flag is refused at a character that is no letter if it is neither of the two digits. -/
lemma flag_eq_error_iff (hat : c.atToken = ⟨offset, ch :: r⟩) (hletter : isLetter ch = false) :
    c.flag letter = .error e ↔ (ch ≠ '0' ∧ ch ≠ '1') ∧ e = .invalidNumber offset := by
  unfold flag
  rw [hat]
  dsimp only
  split
  · rename_i h
    cases h
  · rename_i h
    cases h
    simp
  · rename_i h
    cases h
    simp
  · rename_i d r' hzero hone h
    cases h
    simp only [hletter, Bool.false_eq_true, if_false]
    have hne : ch ≠ '0' ∧ ch ≠ '1' :=
      ⟨fun h => hzero h, fun h => hone h⟩
    simp [hne, eq_comm]

/-- An argument is refused at a letter. -/
lemma behind_letter (hat : c.atToken = ⟨offset, ch :: r⟩) (h : isLetter ch = true) :
    c.behind letter kind = .error (.missingCoordinates letter offset) := by
  cases kind with
  | number => simp [behind, number, hat, h]
  | flag =>
    refine map_eq_error_iff.mpr ?_
    unfold flag
    rw [hat]
    dsimp only
    split
    · rename_i heq
      cases heq
    · rename_i heq
      cases heq
      exact absurd h (by decide)
    · rename_i heq
      cases heq
      exact absurd h (by decide)
    · rename_i heq
      cases heq
      rw [if_pos h]

/-- An argument is refused at the end of the text. -/
lemma behind_end (hat : c.atToken = ⟨offset, []⟩) :
    c.behind letter kind = .error (.missingCoordinates letter offset) := by
  cases kind <;> simp [behind, number, flag, hat]

/-- At a character that is no letter, an argument is refused exactly if there is a misfit. -/
lemma behind_eq_error_iff_misfit (hat : c.atToken = ⟨offset, ch :: r⟩)
    (hletter : isLetter ch = false) (hseparator : isSeparator ch = false) :
    c.behind letter kind = .error e ↔
      (∃ token tail, ch :: r = token ++ tail ∧ Misfit kind token tail) ∧
        e = .invalidNumber offset := by
  cases kind with
  | number =>
    unfold behind
    rw [map_eq_error_iff, number_eq_error_iff hat hletter]
    refine and_congr_left fun _ => ⟨exists_misfit hletter hseparator, ?_⟩
    rintro ⟨token, tail, heq, hmisfit⟩
    rw [heq]
    exact hmisfit.numeral?_bind
  | flag =>
    unfold behind
    rw [map_eq_error_iff, flag_eq_error_iff hat hletter]
    refine and_congr_left fun _ => ⟨fun hne => ?_, ?_⟩
    · exact ⟨[ch], r, rfl, .noFlag hletter hseparator hne.1 hne.2⟩
    · rintro ⟨token, tail, heq, hmisfit⟩
      cases hmisfit with
      | noFlag _ _ hzero hone =>
        cases heq
        exact ⟨hzero, hone⟩

/-- An argument is refused exactly where the text ends, at a letter and at a misfit. -/
theorem behind_eq_error_iff :
    c.behind letter kind = .error e ↔ ∃ gap token tail, IsGap gap ∧
      c.rest = gap ++ (token ++ tail) ∧
        NoArgument kind letter (c.offset + gap.length) token tail e := by
  constructor
  · intro h
    obtain ⟨gap, cs, hgap, hrest, hnext, hat⟩ := c.exists_atToken
    cases cs with
    | nil =>
      obtain rfl := Except.error.inj ((behind_end hat).symm.trans h)
      exact ⟨gap, [], [], hgap, hrest, .nothing⟩
    | cons ch r =>
      cases hletter : isLetter ch with
      | true =>
        obtain rfl := Except.error.inj ((behind_letter hat hletter).symm.trans h)
        exact ⟨gap, [ch], r, hgap, hrest, .letter hletter⟩
      | false =>
        obtain ⟨⟨token, tail, heq, hmisfit⟩, rfl⟩ :=
          (behind_eq_error_iff_misfit hat hletter (hnext ch rfl)).mp h
        exact ⟨gap, token, tail, hgap, heq ▸ hrest, .misfit hmisfit⟩
  · rintro ⟨gap, token, tail, hgap, hrest, hno⟩
    obtain ⟨start, text⟩ := c
    change text = gap ++ (token ++ tail) at hrest
    subst hrest
    cases hno with
    | nothing =>
      rw [List.append_nil, List.append_nil]
      exact behind_end (atToken_gap start hgap)
    | @letter ch tail h =>
      refine behind_letter (atToken_append start hgap fun d hd => ?_) h
      cases hd
      exact not_isSeparator_of_isLetter h
    | misfit h =>
      obtain ⟨ch, cs, rfl, hletter⟩ := h.exists_head
      have hseparator := h.not_isSeparator ch List.mem_cons_self
      have hat : atToken ⟨start, gap ++ (ch :: cs ++ tail)⟩ =
          ⟨start + gap.length, ch :: (cs ++ tail)⟩ := by
        refine atToken_append start hgap fun d hd => ?_
        cases hd
        exact hseparator
      exact (behind_eq_error_iff_misfit hat hletter hseparator).mpr ⟨⟨_, tail, rfl, h⟩, rfl⟩

end Cursor

end PathData

end SvgDisplayList
