import SvgDisplayList.Css.Token
import SvgDisplayList.Proofs.Number.Decimal
import SvgDisplayList.Text.JsonString
import SvgDisplayList.Text.Utf16

/-!
# Reading JSON

The grammar of JSON as a reader (`Json.ofText?`), which takes the texts of the grammar and no other
ones: blanks between tokens, numbers without leading zeros, strings without raw control characters,
in which an escape may be one half of a surrogate pair and then needs the other half.  Every bracket
and every comma takes two units of fuel, so that twice the length of a text is enough.

What the library writes is read as what was written.  For strings this goes character by character
(`Json.text?_escapeChar`), and for objects member by member (`Json.members?_intercalate`).  A number
has no end of its own, so all this holds of texts before something that does not go on with a number
(`Json.Reads`).
-/

namespace SvgDisplayList

/-- A JSON value.  A number is kept as it is written, and the members of an object in their
order. -/
inductive Json where
  | null
  | boolean (b : Bool)
  | number (written : String)
  | string (s : String)
  | array (items : List Json)
  | object (members : List (String × Json))

namespace Json

/-! ## The reader -/

/-- A text without the blanks in front. -/
def skip (cs : List Char) : List Char :=
  cs.dropWhile fun c => c == ' ' || c == '\t' || c == '\n' || c == '\r'

/-- The text behind a character that comes next. -/
def after? (c : Char) (cs : List Char) : Option (List Char) :=
  match skip cs with
  | d :: rest => if d == c then some rest else none
  | [] => none

/-- The character that a letter behind a backslash stands for. -/
def letter? : Char → Option Char
  | '"' => some '"'
  | '\\' => some '\\'
  | '/' => some '/'
  | 'b' => some '\x08'
  | 'f' => some '\x0c'
  | 'n' => some '\n'
  | 'r' => some '\r'
  | 't' => some '\t'
  | _ => none

/-- The number that four hexadecimal digits write. -/
def unit? (a b c d : Char) : Option Nat := do
  return ((← Css.hexDigit? a) * 0x1000 + (← Css.hexDigit? b) * 0x100 + (← Css.hexDigit? c) * 0x10 +
    (← Css.hexDigit? d))

/-- What has been read, with a character in front. -/
def follow (c : Char) (read? : Option (List Char × List Char)) : Option (List Char × List Char) :=
  read?.map fun (cs, rest) => (c :: cs, rest)

/-- The text up to the closing quote, and what stands behind the quote.  The high half of a
surrogate pair is held until the low half, which must come next, has been read. -/
def text? : (held? : Option Nat) → List Char → Option (List Char × List Char)
  | held?, '\\' :: 'u' :: a :: b :: c :: d :: rest =>
    match unit? a b c d, held? with
    | none, _ => none
    | some u, none =>
      if Text.Utf16.isHigh u then text? (some u) rest
      else if Text.Utf16.isLow u then none
      else follow (Char.ofNat u) (text? none rest)
    | some u, some h =>
      if Text.Utf16.isLow u then
        follow (Char.ofNat (0x10000 + (h - 0xd800) * 0x400 + (u - 0xdc00))) (text? none rest)
      else none
  | some _, _ => none
  | none, '\\' :: c :: rest =>
    match letter? c with
    | some e => follow e (text? none rest)
    | none => none
  | none, '"' :: rest => some ([], rest)
  | none, c :: rest => if c.toNat < 0x20 then none else follow c (text? none rest)
  | none, [] => none

/-- A run of digits, and what stands behind it. -/
def digits (cs : List Char) : List Char × List Char :=
  (cs.takeWhile Decimal.isDigit, cs.dropWhile Decimal.isDigit)

/-- A run of digits that is not empty, behind characters that have been read. -/
def digits? (before cs : List Char) : Option (List Char × List Char) :=
  if (digits cs).1.isEmpty then none else some (before ++ (digits cs).1, (digits cs).2)

/-- The whole part of a number: a zero, or digits that start with another one. -/
def whole? : List Char → Option (List Char × List Char)
  | '0' :: rest => some (['0'], rest)
  | cs => digits? [] cs

/-- The part of a number behind the point, which may be missing. -/
def fraction? : List Char → Option (List Char × List Char)
  | '.' :: rest => digits? ['.'] rest
  | cs => some ([], cs)

/-- A run of digits with a sign, which may be missing. -/
def signed? (e : Char) : List Char → Option (List Char × List Char)
  | '+' :: rest => digits? [e, '+'] rest
  | '-' :: rest => digits? [e, '-'] rest
  | cs => digits? [e] cs

/-- The power of ten of a number, which may be missing. -/
def exponent? : List Char → Option (List Char × List Char)
  | e :: rest => if e == 'e' || e == 'E' then signed? e rest else some ([], e :: rest)
  | [] => some ([], [])

/-- A number without a sign. -/
def magnitude? (cs : List Char) : Option (List Char × List Char) := do
  let (whole, cs) ← whole? cs
  let (fraction, cs) ← fraction? cs
  let (exponent, cs) ← exponent? cs
  return (whole ++ fraction ++ exponent, cs)

/-- A number. -/
def number? : List Char → Option (List Char × List Char)
  | '-' :: cs => follow '-' (magnitude? cs)
  | cs => magnitude? cs

mutual

/-- A value, and the text behind it. -/
def value? : (fuel : Nat) → List Char → Option (Json × List Char)
  | 0, _ => none
  | fuel + 1, cs =>
    match skip cs with
    | 'n' :: 'u' :: 'l' :: 'l' :: rest => some (null, rest)
    | 't' :: 'r' :: 'u' :: 'e' :: rest => some (boolean true, rest)
    | 'f' :: 'a' :: 'l' :: 's' :: 'e' :: rest => some (boolean false, rest)
    | '"' :: rest => (text? none rest).map fun (s, rest) => (string (String.ofList s), rest)
    | '[' :: rest =>
      match after? ']' rest with
      | some rest => some (array [], rest)
      | none => (items? fuel rest).map fun (items, rest) => (array items, rest)
    | '\x7b' :: rest =>
      match after? '\x7d' rest with
      | some rest => some (object [], rest)
      | none => (members? fuel rest).map fun (members, rest) => (object members, rest)
    | cs => (number? cs).map fun (written, rest) => (number (String.ofList written), rest)

/-- The items of an array and the text behind its bracket. -/
def items? : (fuel : Nat) → List Char → Option (List Json × List Char)
  | 0, _ => none
  | fuel + 1, cs => do
    let (item, cs) ← value? fuel cs
    match after? ',' cs with
    | some cs => (items? fuel cs).map fun (items, rest) => (item :: items, rest)
    | none => (after? ']' cs).map fun rest => ([item], rest)

/-- The members of an object and the text behind its brace. -/
def members? : (fuel : Nat) → List Char → Option (List (String × Json) × List Char)
  | 0, _ => none
  | fuel + 1, cs => do
    let (name, cs) ← text? none (← after? '"' cs)
    let (v, cs) ← value? fuel (← after? ':' cs)
    let member := (String.ofList name, v)
    match after? ',' cs with
    | some cs => (members? fuel cs).map fun (members, rest) => (member :: members, rest)
    | none => (after? '\x7d' cs).map fun rest => ([member], rest)

end

/-- The value that a text writes, with nothing but blanks around it. -/
def ofText? (s : String) : Option Json :=
  match value? (2 * s.length + 1) s.toList with
  | some (v, rest) => if (skip rest).isEmpty then some v else none
  | none => none

/-! ## Strings -/

/-- A hexadecimal digit has its value. -/
lemma hexDigit?_digitChar : ∀ k < 16, Css.hexDigit? (Nat.digitChar k) = some k := by decide

/-- The four digits of a small number have its value. -/
lemma unit?_digitChar {n : Nat} (hn : n < 256) :
    unit? '0' '0' (Nat.digitChar (n / 16)) (Nat.digitChar (n % 16)) = some n := by
  unfold unit?
  rw [hexDigit?_digitChar (n / 16) (by omega), hexDigit?_digitChar (n % 16) (by omega)]
  change some (0 * 0x1000 + 0 * 0x100 + n / 16 * 0x10 + n % 16) = some n
  congr 1
  omega

/-- A control character is read from its number. -/
lemma text?_control {c : Char} (hc : c.toNat < 0x20) (cs : List Char) :
    text? none ('\\' :: 'u' :: JsonString.fourDigits c.toNat ++ cs) = follow c (text? none cs) := by
  have hhigh : Text.Utf16.isHigh c.toNat = false :=
    Bool.and_eq_false_iff.mpr (Or.inl (decide_eq_false (by omega)))
  have hlow : Text.Utf16.isLow c.toNat = false :=
    Bool.and_eq_false_iff.mpr (Or.inl (decide_eq_false (by omega)))
  change text? none ('\\' :: 'u' :: '0' :: '0' :: Nat.digitChar (c.toNat / 16) ::
    Nat.digitChar (c.toNat % 16) :: cs) = _
  rw [text?.eq_def]
  simp only [unit?_digitChar (show c.toNat < 256 by omega), hhigh, hlow, Bool.false_eq_true,
    if_false, Char.ofNat_toNat]

/-- A character is read from how it stands in a string. -/
lemma text?_escapeChar (c : Char) (cs : List Char) :
    text? none (JsonString.escapeChar c ++ cs) = follow c (text? none cs) := by
  unfold JsonString.escapeChar
  split
  · rfl
  · rfl
  · rfl
  · rfl
  · rfl
  · rename_i hslash hquote _ _ _
    split_ifs with hc
    · exact text?_control hc cs
    · rw [List.singleton_append, text?, if_neg hc]
      · exact fun _ _ _ _ _ h _ => hslash h
      · exact fun _ _ h _ => hslash h
      · exact hquote

/-- A text is read from how it stands in a string. -/
lemma text?_escape (s : String) (rest : List Char) :
    text? none ((JsonString.escape s).toList ++ '"' :: rest) = some (s.toList, rest) := by
  unfold JsonString.escape
  rw [String.toList_ofList]
  induction s.toList with
  | nil => rfl
  | cons c cs ih =>
    rw [List.flatMap_cons, List.append_assoc, text?_escapeChar, ih]
    rfl

/-- A string ends with its quote. -/
lemma toList_quote (s : String) :
    (JsonString.quote s).toList = '"' :: ((JsonString.escape s).toList ++ ['"']) := by
  unfold JsonString.quote
  rw [String.toList_append, String.toList_append]
  rfl

/-! ## Numbers -/

/-- What can stand behind a number: nothing that would go on with it. -/
def Ends (rest : List Char) : Prop :=
  ∀ c ∈ rest.head?, Decimal.isDigit c = false ∧ c ≠ '.' ∧ c ≠ 'e' ∧ c ≠ 'E'

/-- Only zero is written with a zero in front. -/
lemma head?_toDigits_ne (n : Nat) (hn : n ≠ 0) : (Nat.toDigits 10 n).head? ≠ some '0' := by
  induction n using Nat.strongRecOn with
  | _ n ih =>
    rw [Nat.toDigits_eq_if (by decide)]
    split_ifs with hsmall
    · have hdigits : ∀ n < 10, n ≠ 0 → Nat.digitChar n ≠ '0' := by decide
      exact fun h => hdigits n hsmall hn (Option.some.inj h)
    · rw [List.head?_append_of_ne_nil _ Nat.toDigits_ne_nil]
      exact ih (n / 10) (by omega) (by omega)

variable {rest : List Char}

/-- A run of digits ends where a number may end. -/
lemma digits_append {ds : List Char} (hds : ∀ c ∈ ds, Decimal.isDigit c = true)
    (hrest : Ends rest) : digits (ds ++ rest) = (ds, rest) := by
  have hstop : rest.takeWhile Decimal.isDigit = [] ∧ rest.dropWhile Decimal.isDigit = rest := by
    cases rest with
    | nil => exact ⟨rfl, rfl⟩
    | cons c cs =>
      have hc := (hrest c rfl).1
      exact ⟨List.takeWhile_cons_of_neg (by simp [hc]), List.dropWhile_cons_of_neg (by simp [hc])⟩
  unfold digits
  rw [List.takeWhile_append_of_pos hds, List.dropWhile_append_of_pos hds, hstop.1, hstop.2,
    List.append_nil]

/-- The whole part of a number is read from its digits. -/
lemma whole?_toDigits (n : Nat) (hrest : Ends rest) :
    whole? (Nat.toDigits 10 n ++ rest) = some (Nat.toDigits 10 n, rest) := by
  rcases Nat.eq_zero_or_pos n with rfl | hn
  · rfl
  · obtain ⟨d, ds, hds⟩ := List.exists_cons_of_ne_nil (Nat.toDigits_ne_nil (n := n) (b := 10))
    have hne := head?_toDigits_ne n hn.ne'
    have hall := Decimal.isDigit_of_mem_toDigits n
    rw [hds] at hne hall ⊢
    rw [List.cons_append, whole?, ← List.cons_append, digits?, digits_append hall hrest]
    · rfl
    · exact fun _ hzero => hne (congrArg some (List.cons.inj hzero).1)

/-- A natural number is read from its digits. -/
lemma magnitude?_toDigits (n : Nat) (hrest : Ends rest) :
    magnitude? (Nat.toDigits 10 n ++ rest) = some (Nat.toDigits 10 n, rest) := by
  have hfraction : fraction? rest = some ([], rest) := by
    cases rest with
    | nil => rfl
    | cons c cs =>
      rw [fraction?]
      exact fun _ h => (hrest c rfl).2.1 (List.cons.inj h).1
  have hexponent : exponent? rest = some ([], rest) := by
    cases rest with
    | nil => rfl
    | cons c cs =>
      obtain ⟨-, -, he, hE⟩ := hrest c rfl
      rw [exponent?, if_neg (by simp [he, hE])]
  unfold magnitude?
  rw [whole?_toDigits n hrest]
  simp only [Option.bind_eq_bind, Option.bind_some, hfraction, hexponent, List.append_nil]
  rfl

/-! ## Values -/

/-- A text is read as a value, whatever stands behind it that may stand behind a number. -/
def Reads (text : String) (v : Json) : Prop :=
  ∀ fuel rest, Ends rest → 2 * text.length < fuel →
    value? fuel (text.toList ++ rest) = some (v, rest)

/-- All of a text is read if it is read with nothing behind it. -/
lemma Reads.ofText? {text : String} {v : Json} (h : Reads text v) :
    Json.ofText? text = some v := by
  have hread := h (2 * text.length + 1) [] (fun c hc => by cases hc) (Nat.lt_succ_self _)
  rw [List.append_nil] at hread
  rw [Json.ofText?, hread]
  rfl

/-- The word for nothing. -/
lemma reads_null : Reads "null" null := by
  intro fuel rest _ hfuel
  obtain ⟨fuel, rfl⟩ := Nat.exists_eq_succ_of_ne_zero (Nat.ne_zero_of_lt hfuel)
  rfl

/-- A string. -/
lemma reads_quote (s : String) : Reads (JsonString.quote s) (string s) := by
  intro fuel rest _ hfuel
  obtain ⟨fuel, rfl⟩ := Nat.exists_eq_succ_of_ne_zero (Nat.ne_zero_of_lt hfuel)
  have hskip : ∀ cs, skip ('"' :: cs) = '"' :: cs := fun cs => rfl
  rw [toList_quote, List.cons_append, List.append_assoc, value?, hskip]
  change (text? none ((JsonString.escape s).toList ++ '"' :: rest)).map _ = _
  rw [text?_escape, Option.map_some]
  exact congrArg (fun t => some (string t, rest)) String.ofList_toList

/-- A value that starts with a digit is a number. -/
lemma value?_digit {d : Char} (hd : Decimal.isDigit d = true) (fuel : Nat) (cs : List Char) :
    value? (fuel + 1) (d :: cs) =
      (magnitude? (d :: cs)).map fun (written, rest) => (number (String.ofList written), rest) := by
  have hne : ∀ c, Decimal.isDigit c = false → d ≠ c := by
    intro c hc heq
    rw [heq, hc] at hd
    cases hd
  have hskip : skip (d :: cs) = d :: cs := by
    refine List.dropWhile_cons_of_neg ?_
    simp [hne ' ' (by decide), hne '\t' (by decide), hne '\n' (by decide), hne '\r' (by decide)]
  have hnumber : number? (d :: cs) = magnitude? (d :: cs) := by
    rw [number?]
    exact fun _ h => hne '-' (by decide) (List.cons.inj h).1
  rw [value?, hskip]
  split
  case h_7 => rw [hnumber]
  all_goals
    rename_i h
    exact absurd (List.cons.inj h).1 (hne _ (by decide))

/-- A natural number. -/
lemma reads_toString (n : Nat) : Reads (toString n) (number (toString n)) := by
  intro fuel rest hrest hfuel
  obtain ⟨fuel, rfl⟩ := Nat.exists_eq_succ_of_ne_zero (Nat.ne_zero_of_lt hfuel)
  have htext : (toString n).toList = Nat.toDigits 10 n := Nat.toList_repr
  have hmagnitude := magnitude?_toDigits n hrest
  obtain ⟨d, ds, hds⟩ := List.exists_cons_of_ne_nil (Nat.toDigits_ne_nil (n := n) (b := 10))
  rw [htext]
  rw [hds] at hmagnitude ⊢
  rw [List.cons_append] at hmagnitude ⊢
  rw [value?_digit (Decimal.isDigit_of_mem_toDigits n d (by rw [hds]; exact List.mem_cons_self)),
    hmagnitude, Option.map_some, ← hds]
  rfl

/-! ## Objects -/

/-- The text of a member of an object. -/
def memberText (f : String × String) : List Char :=
  (JsonString.quote f.1).toList ++ ':' :: f.2.toList

/-- An object has commas between its members and braces around them. -/
lemma toList_object (fields : List (String × String)) :
    (JsonString.object fields).toList =
      '\x7b' :: ([','].intercalate (fields.map memberText) ++ ['\x7d']) := by
  have hmember (f : String × String) :
      (JsonString.quote f.1 ++ ":" ++ f.2).toList = memberText f := by
    rw [String.toList_append, String.toList_append, List.append_assoc]
    rfl
  have hlist :
      (JsonString.object.list (fun f => JsonString.quote f.1 ++ ":" ++ f.2) fields).toList =
      [','].intercalate (fields.map memberText) := by
    induction fields with
    | nil => rfl
    | cons f fs ih =>
      cases fs with
      | nil =>
        rw [JsonString.object.list, hmember, List.map_singleton, List.intercalate_singleton]
      | cons g gs =>
        rw [JsonString.object.list, String.toList_append, String.toList_append, hmember, ih]
        · exact (List.intercalate_cons_cons ..).symm
        · exact List.cons_ne_nil _ _
  unfold JsonString.object
  rw [String.toList_append, String.toList_append, hlist]
  rfl

/-- Texts of members are read as members. -/
def ReadAll (fields : List (String × String)) (members : List (String × Json)) : Prop :=
  List.Forall₂ (fun f m => f.1 = m.1 ∧ Reads f.2 m.2) fields members

/-- One member is read up to the comma or the brace behind it. -/
lemma members?_memberText {f : String × String} {v : Json} (hread : Reads f.2 v) {fuel : Nat}
    (hfuel : 2 * f.2.length < fuel) (hrest : Ends rest) :
    members? (fuel + 1) (memberText f ++ rest) =
      match after? ',' rest with
      | some rest => (members? fuel rest).map fun (members, rest) => ((f.1, v) :: members, rest)
      | none => (after? '\x7d' rest).map fun rest => ([(f.1, v)], rest) := by
  have hopen : ∀ cs, after? '"' ('"' :: cs) = some cs := fun cs => rfl
  have hcolon : ∀ cs, after? ':' (':' :: cs) = some cs := fun cs => rfl
  unfold memberText
  rw [toList_quote, members?, List.cons_append, List.append_assoc]
  simp only [List.cons_append, List.append_assoc, List.nil_append, hopen, Option.bind_eq_bind,
    Option.bind_some, text?_escape, hcolon, hread fuel rest hrest hfuel, String.ofList_toList]

/-- The members of an object are read up to its brace. -/
theorem members?_intercalate {fields : List (String × String)} {members : List (String × Json)}
    (h : ReadAll fields members) (hne : fields ≠ []) {fuel : Nat}
    (hfuel : 2 * ([','].intercalate (fields.map memberText)).length < fuel) :
    members? fuel ([','].intercalate (fields.map memberText) ++ '\x7d' :: rest) =
      some (members, rest) := by
  have hbrace : ∀ cs, Ends ('\x7d' :: cs) := by
    intro cs c hc
    obtain rfl := Option.some.inj hc
    decide
  have hcomma : ∀ cs, Ends (',' :: cs) := by
    intro cs c hc
    obtain rfl := Option.some.inj hc
    decide
  have hlength (f : String × String) : f.2.length + 3 ≤ (memberText f).length := by
    unfold memberText
    rw [toList_quote]
    simp only [List.length_append, List.length_cons, List.length_nil, String.length_toList]
    omega
  induction h generalizing fuel with
  | nil => exact absurd rfl hne
  | @cons f m fs ms hm hms ih =>
    obtain ⟨fuel, rfl⟩ := Nat.exists_eq_succ_of_ne_zero (Nat.ne_zero_of_lt hfuel)
    have hf := hlength f
    cases hms with
    | nil =>
      rw [List.map_singleton, List.intercalate_singleton] at hfuel ⊢
      rw [members?_memberText hm.2 (by omega) (hbrace rest), hm.1]
      rfl
    | @cons g n gs ns hn hns =>
      rw [List.map_cons, List.map_cons, List.intercalate_cons_cons, ← List.map_cons] at hfuel ⊢
      simp only [List.length_append, List.length_singleton] at hfuel
      rw [List.append_assoc, List.append_assoc, List.singleton_append,
        members?_memberText hm.2 (by omega) (hcomma _), hm.1]
      change (members? fuel _).map _ = _
      rw [ih (List.cons_ne_nil _ _) (by omega)]
      rfl

/-- The first member starts with a quote. -/
lemma exists_intercalate_eq (f : String × String) (fs : List (String × String)) :
    ∃ cs, [','].intercalate ((f :: fs).map memberText) = '"' :: cs := by
  have hmember : ∃ cs, memberText f = '"' :: cs := by
    unfold memberText
    rw [toList_quote]
    exact ⟨_, rfl⟩
  obtain ⟨cs, hcs⟩ := hmember
  rw [List.map_cons, hcs]
  cases fs.map memberText with
  | nil => exact ⟨_, List.intercalate_singleton⟩
  | cons w ws => exact ⟨_, List.intercalate_cons_cons⟩

/-- An object. -/
theorem reads_object {fields : List (String × String)} {members : List (String × Json)}
    (h : ReadAll fields members) : Reads (JsonString.object fields) (object members) := by
  intro fuel rest _ hfuel
  obtain ⟨fuel, rfl⟩ := Nat.exists_eq_succ_of_ne_zero (Nat.ne_zero_of_lt hfuel)
  rw [← String.length_toList, toList_object] at hfuel
  have hvalue : ∀ cs, value? (fuel + 1) ('\x7b' :: cs) =
      match after? '\x7d' cs with
      | some rest => some (object [], rest)
      | none => (members? fuel cs).map fun (members, rest) => (object members, rest) :=
    fun cs => rfl
  rw [toList_object, List.cons_append, List.append_assoc, List.singleton_append, hvalue]
  cases h with
  | nil => rfl
  | @cons f m fs ms hm hms =>
    obtain ⟨cs, hcs⟩ := exists_intercalate_eq f fs
    have hlength : 2 * ([','].intercalate ((f :: fs).map memberText)).length < fuel := by
      simp only [List.length_cons, List.length_append] at hfuel
      omega
    have hmembers :
        members? fuel ([','].intercalate ((f :: fs).map memberText) ++ '\x7d' :: rest) =
          some (m :: ms, rest) :=
      members?_intercalate (.cons hm hms) (List.cons_ne_nil f fs) hlength
    have hnone : after? '\x7d' ('"' :: (cs ++ '\x7d' :: rest)) = none := rfl
    rw [hcs, List.cons_append] at hmembers ⊢
    rw [hnone, hmembers]
    rfl

end Json

end SvgDisplayList
