import SvgDisplayList.Proofs.Number.Decimal
import SvgDisplayList.Proofs.PathData.Fault

/-!
# Scanning path data byte by byte

The reader of path data takes characters from the front of a text, and cannot take what is not
there.  Here it is written down once more as a scanner that moves a position in the bytes of the
text (`PathData.ByteScanner.run`).  It looks at bytes without asking whether there are any, cuts the
bytes of a numeral out of the text and hands them on to be read as a number, and takes as many turns
as it is given.  All of that can go wrong, and is told apart from what is wrong with the path data
(`PathData.ByteScanner.Stop`).

The bytes and the characters of a text are the same up to the first one that is not of ASCII
(`Shows`), and no letter and no argument goes beyond it.  So a scan from a position that stands
where a cursor does (`Stands`) finds what is read from the cursor, and nothing goes wrong on the way
(`Follows`).
-/

namespace SvgDisplayList

namespace PathData

namespace ByteScanner

/-! ## The scanner -/

/-- Why a scan stops short: because the path data is refused, or because the scanner itself fails.
It fails where it looks at a byte outside of the text, where the token that it hands on is not the
text of a number, or of one that is neither finite nor infinite, and where it runs out of turns. -/
inductive Stop where
  | refused (e : PathError)
  | outside (position : Nat)
  | misread (token : List UInt8)
  | exhausted
deriving DecidableEq, Repr

/-- A scan moves the position, and leaves it behind where it stops short. -/
abbrev Scan := EStateM Stop Nat

/-- A byte as a character. -/
def asChar (b : UInt8) : Char := Char.ofNat b.toNat

/-- A sign. -/
def isSign (c : Char) : Bool := c == '+' || c == '-'

/-- The letter of an exponent. -/
def isExponentLetter (c : Char) : Bool := c == 'e' || c == 'E'

/-- The decimal that bytes are the text of. -/
def decimal? (token : List UInt8) : Option Decimal :=
  if token.all (· < 128) then Decimal.ofChars? (token.map asChar) else none

/-- Moves over one byte. -/
def advance : Scan Unit := fun i => .ok () (i + 1)

section

variable (bytes : List UInt8)

/-- The byte at the position. -/
def byte : Scan UInt8 := fun i =>
  match bytes[i]? with
  | some b => .ok b i
  | none => .error (.outside i) i

/-- Whether the position is at the end. -/
def atEnd : Scan Bool := fun i => .ok (decide (bytes.length ≤ i)) i

/-- Whether the position is at a byte of a class. -/
def ahead (p : Char → Bool) : Scan Bool := do
  if ← atEnd bytes then return false
  else return p (asChar (← byte bytes))

/-- Moves over the bytes of a class from a position on. -/
def skipFrom (p : Char → Bool) (i : Nat) : EStateM.Result Stop Nat Unit :=
  if i < bytes.length then
    match byte bytes i with
    | .ok b _ => if p (asChar b) then skipFrom p (i + 1) else .ok () i
    | .error stop j => .error stop j
  else .ok () i
termination_by bytes.length - i

/-- Moves over the bytes of a class. -/
def skip (p : Char → Bool) : Scan Unit := skipFrom bytes p

/-- Moves over digits, and counts them. -/
def digits : Scan Nat := do
  let start ← get
  skip bytes Decimal.isDigit
  return (← get) - start

/-- Moves over the sign that the position may be at. -/
def sign : Scan Unit := do
  if isSign (asChar (← byte bytes)) then advance else return ()

/-- Moves over a sign, if the position is at one. -/
def signAhead : Scan Unit := do
  if ← ahead bytes isSign then advance else return ()

/-- Moves over a point and digits, if the position is at a point, and counts the digits. -/
def fraction : Scan Nat := do
  if ← ahead bytes (· == '.') then
    advance
    digits bytes
  else return 0

/-- Moves over an exponent, if the position is at its letter. -/
def exponent (invalid : Stop) : Scan Unit := do
  if ← ahead bytes isExponentLetter then
    advance
    signAhead bytes
    let count ← digits bytes
    if count = 0 then throw invalid else return ()
  else return ()

/-- Moves over a numeral. -/
def numeral (invalid : Stop) : Scan Unit := do
  sign bytes
  let whole ← digits bytes
  let fractional ← fraction bytes
  if whole + fractional = 0 then throw invalid
  else exponent bytes invalid

/-- The number whose text begins at a position and ends before the present one. -/
def value (start : Nat) : Scan Float32 := do
  let stop ← get
  if stop < start ∨ bytes.length < stop then throw (.outside stop)
  else
    let token := (bytes.drop start).take (stop - start)
    match decimal? token with
    | none => throw (.misread token)
    | some d =>
      let x := d.toBinary32
      if x.isFinite then return x
      else if x.isInf then throw (.refused (.invalidNumber start))
      else throw (.misread token)

/-- Whether there is no number at the position, but a letter or the end. -/
def noNumber : Scan Bool := do
  if ← atEnd bytes then return true
  else return isLetter (asChar (← byte bytes))

/-- A number, as an argument of a command. -/
def number (command : Char) : Scan Float32 := do
  skip bytes isSeparator
  let start ← get
  if ← noNumber bytes then throw (.refused (.missingCoordinates command start))
  else
    numeral bytes (.refused (.invalidNumber start))
    value bytes start

/-- A pair of numbers. -/
def pair (command : Char) : Scan Point := do
  let x ← number bytes command
  let y ← number bytes command
  return ⟨x, y⟩

/-- A flag. -/
def flag (command : Char) : Scan Bool := do
  skip bytes isSeparator
  let offset ← get
  if ← atEnd bytes then throw (.refused (.missingCoordinates command offset))
  else
    let ch := asChar (← byte bytes)
    if ch = '0' then
      advance
      return false
    else if ch = '1' then
      advance
      return true
    else if isLetter ch then throw (.refused (.missingCoordinates command offset))
    else throw (.refused (.invalidNumber offset))

/-- Whether another set of arguments follows. -/
def more : Scan Bool := do
  skip bytes isSeparator
  ahead bytes startsNumber

/-- One set of arguments. -/
def arguments (k : Command) (letter : Char) : Scan Motion :=
  match k with
  | .move => return .move (← pair bytes letter)
  | .line => return .line (← pair bytes letter)
  | .horizontal => return .horizontal (← number bytes letter)
  | .vertical => return .vertical (← number bytes letter)
  | .cubic => do
    let p ← pair bytes letter
    let q ← pair bytes letter
    let r ← pair bytes letter
    return .cubic p q r
  | .smoothCubic => do
    let q ← pair bytes letter
    let r ← pair bytes letter
    return .smoothCubic q r
  | .quadratic => do
    let q ← pair bytes letter
    let r ← pair bytes letter
    return .quadratic q r
  | .smoothQuadratic => return .smoothQuadratic (← pair bytes letter)
  | .arc => do
    let rx ← number bytes letter
    let ry ← number bytes letter
    let rotation ← number bytes letter
    let large ← flag bytes letter
    let sweep ← flag bytes letter
    let p ← pair bytes letter
    return .arc ⟨rx, ry, rotation, large, sweep⟩ p
  | .close => return .close

/-- What a letter leads to: the steps that are complete with it, and what is expected behind it. -/
def command (first : Bool) (letter : Char) (offset : Nat) :
    Except PathError (List Step × Expectation) :=
  if first && letter != 'M' && letter != 'm' then .error .missingMoveTo
  else
    match Command.ofLetter? letter with
    | none => .error (.unknownCommand letter offset)
    | some .close => .ok ([⟨letter.isLower, .close⟩], .letter false)
    | some k => .ok ([], .arguments k letter)

/-- One turn: it ends at the end of the text, or it completes some steps and expects something
next. -/
def turn : Expectation → Scan (Option (List Step × Expectation))
  | .letter first => do
    skip bytes isSeparator
    let offset ← get
    if ← atEnd bytes then return none
    else
      let letter := asChar (← byte bytes)
      if !isLetter letter then
        throw (.refused (if first then .missingMoveTo else .invalidNumber offset))
      else
        advance
        match command first letter offset with
        | .ok next => return some next
        | .error e => throw (.refused e)
  | .arguments k letter => do
    let motion ← arguments bytes k letter
    let again ← more bytes
    return some ([⟨letter.isLower, motion⟩],
      if again then .arguments k.repeated letter else .letter false)

/-- Takes turns up to the end of the text. -/
def run : (turns : Nat) → Expectation → Scan (List Step)
  | 0, _ => throw .exhausted
  | turns + 1, x => do
    match ← turn bytes x with
    | none => return []
    | some (steps, next) => return steps ++ (← run turns next)

end

/-! ## Bytes and characters -/

/-- Bytes and characters are the same up to the first one that is not of ASCII. -/
inductive Shows : List UInt8 → List Char → Prop where
  | nil : Shows [] []
  | cons {b : UInt8} {bs : List UInt8} {cs : List Char} (hb : b.toNat < 128) (h : Shows bs cs) :
      Shows (b :: bs) (asChar b :: cs)
  | beyond {b : UInt8} {bs : List UInt8} {c : Char} {cs : List Char} (hb : 128 ≤ b.toNat)
      (hc : 128 ≤ c.toNat) : Shows (b :: bs) (c :: cs)

/-- A class of ASCII characters. -/
def IsAscii (p : Char → Bool) : Prop := ∀ c, p c = true → c.toNat < 128

/-- A byte is a character of its number. -/
lemma toNat_asChar (b : UInt8) : (asChar b).toNat = b.toNat := by
  have hlt := b.toNat_lt
  unfold asChar
  rw [Char.ofNat, dif_pos (Or.inl (by omega))]
  rfl

/-- Characters of one byte are those of ASCII. -/
lemma toNat_lt_of_utf8Size {c : Char} (h : c.utf8Size = 1) : c.toNat < 128 := by
  rw [Char.utf8Size_eq_one_iff, UInt32.le_iff_toNat_le] at h
  exact Nat.lt_succ_of_le h

/-- Separators are of ASCII. -/
lemma isAscii_isSeparator : IsAscii isSeparator :=
  fun _ hc => toNat_lt_of_utf8Size (isSeparator_spec hc).2

/-- Digits are of ASCII. -/
lemma isAscii_isDigit : IsAscii Decimal.isDigit :=
  fun _ hc => toNat_lt_of_utf8Size (isNumeral_spec (.inl hc)).2.2

/-- Single characters of ASCII. -/
lemma isAscii_beq {d : Char} (hd : d.toNat < 128) : IsAscii (· == d) := by
  intro c hc
  rwa [beq_iff_eq.mp hc]

namespace IsAscii

variable {p q : Char → Bool}

/-- Two classes of ASCII characters are one. -/
lemma or (hp : IsAscii p) (hq : IsAscii q) : IsAscii fun c => p c || q c := fun c hc =>
  (Bool.or_eq_true _ _ ▸ hc).elim (hp c) (hq c)

end IsAscii

/-- Signs are of ASCII. -/
lemma isAscii_isSign : IsAscii isSign := (isAscii_beq (by decide)).or (isAscii_beq (by decide))

/-- The letters of exponents are of ASCII. -/
lemma isAscii_isExponentLetter : IsAscii isExponentLetter :=
  (isAscii_beq (by decide)).or (isAscii_beq (by decide))

/-- What a number may start with is of ASCII. -/
lemma isAscii_startsNumber : IsAscii startsNumber :=
  ((isAscii_isDigit.or (isAscii_beq (by decide))).or (isAscii_beq (by decide))).or
    (isAscii_beq (by decide))

/-- Letters are of ASCII. -/
lemma isAscii_isLetter : IsAscii isLetter := by
  intro c hc
  simp only [isLetter, Bool.or_eq_true, Bool.and_eq_true, decide_eq_true_eq, Char.le_def,
    UInt32.le_iff_toNat_le] at hc
  change c.val.toNat < 128
  rcases hc with ⟨-, hle⟩ | ⟨-, hle⟩ <;> exact hle.trans_lt (by decide)

namespace Shows

variable {b : UInt8} {bs : List UInt8} {c : Char} {cs taken : List Char} {p : Char → Bool}

/-- A class of ASCII characters does not tell a byte from a character. -/
lemma class_eq (h : Shows (b :: bs) (c :: cs)) (hp : IsAscii p) : p (asChar b) = p c := by
  cases h with
  | cons => rfl
  | beyond hb hc =>
    have hbyte : p (asChar b) = false := by
      refine Bool.eq_false_iff.mpr fun h => ?_
      have hlt := hp _ h
      rw [toNat_asChar] at hlt
      omega
    have hchar : p c = false := Bool.eq_false_iff.mpr fun h => absurd (hp c h) (by omega)
    rw [hbyte, hchar]

/-- A character of ASCII is its byte. -/
lemma of_lt (h : Shows (b :: bs) (c :: cs)) (hc : c.toNat < 128) :
    asChar b = c ∧ b.toNat < 128 ∧ Shows bs cs := by
  cases h with
  | cons hb h => exact ⟨rfl, hb, h⟩
  | beyond hb hc' => omega

/-- Characters of ASCII are their bytes. -/
lemma of_append (h : Shows bs (taken ++ cs)) (htaken : ∀ c ∈ taken, c.toNat < 128) :
    taken.length ≤ bs.length ∧ (∀ b ∈ bs.take taken.length, b.toNat < 128) ∧
      (bs.take taken.length).map asChar = taken ∧ Shows (bs.drop taken.length) cs := by
  induction taken generalizing bs with
  | nil =>
    refine ⟨Nat.zero_le _, fun b hb => ?_, rfl, h⟩
    rw [List.length_nil, List.take_zero] at hb
    cases hb
  | cons c taken ih =>
    obtain ⟨hc, htail⟩ := List.forall_mem_cons.mp htaken
    cases bs with
    | nil => cases h
    | cons b bs =>
      obtain ⟨rfl, hb, h⟩ := h.of_lt hc
      obtain ⟨hlength, hbytes, hmap, hrest⟩ := ih h htail
      refine ⟨Nat.succ_le_succ hlength, List.forall_mem_cons.mpr ⟨hb, hbytes⟩, ?_, hrest⟩
      rw [List.length_cons, List.take_succ_cons, List.map_cons, hmap]

end Shows

/-- All bytes are the same as the characters of their numbers. -/
lemma shows_map (bs : List UInt8) : Shows bs (bs.map asChar) := by
  induction bs with
  | nil => exact .nil
  | cons b bs ih =>
    rcases lt_or_ge b.toNat 128 with hb | hb
    · exact .cons hb ih
    · exact .beyond hb (toNat_asChar b ▸ hb)

/-- The first byte of a character beyond ASCII is beyond it, too. -/
lemma exists_utf8EncodeChar_eq {c : Char} (hc : 128 ≤ c.toNat) :
    ∃ b bs, String.utf8EncodeChar c = b :: bs ∧ 128 ≤ b.toNat := by
  have hne : ¬ c.val.toNat ≤ 127 := Nat.not_le.mpr hc
  unfold String.utf8EncodeChar
  dsimp only
  rw [if_neg hne]
  split_ifs
  · refine ⟨_, _, rfl, ?_⟩
    rw [UInt8.toNat_ofNat']
    omega
  · refine ⟨_, _, rfl, ?_⟩
    rw [UInt8.toNat_ofNat']
    omega
  · refine ⟨_, _, rfl, ?_⟩
    rw [UInt8.toNat_ofNat']
    omega

/-- The bytes of a text and its characters are the same up to the first one that is not of ASCII. -/
lemma shows_utf8Encode (cs : List Char) : Shows cs.utf8Encode.data.toList cs := by
  induction cs with
  | nil => exact .nil
  | cons c cs ih =>
    rw [List.utf8Encode_cons, List.utf8Encode_singleton, ByteArray.toList_data_append,
      List.data_toByteArray]
    rcases lt_or_ge c.toNat 128 with hc | hc
    · have hencode : String.utf8EncodeChar c = [UInt8.ofNat c.toNat] :=
        if_pos (Nat.le_of_lt_succ hc)
      have hbyte : (UInt8.ofNat c.toNat).toNat = c.toNat := by
        rw [UInt8.toNat_ofNat']
        omega
      have hchar : asChar (UInt8.ofNat c.toNat) = c := by
        rw [asChar, hbyte, Char.ofNat_toNat]
      have hcons := Shows.cons (hbyte.trans_lt hc) ih
      rw [hchar] at hcons
      rwa [hencode]
    · obtain ⟨b, bs, hencode, hb⟩ := exists_utf8EncodeChar_eq hc
      rw [hencode]
      exact .beyond hb hc

/-- A text begins with a character of a class. -/
lemma exists_cons_of_any {cs : List Char} {p : Char → Bool} (h : cs.head?.any p = true) :
    ∃ ch rest, cs = ch :: rest ∧ p ch = true := by
  cases cs with
  | nil => cases h
  | cons ch rest => exact ⟨ch, rest, rfl, h⟩

/-- Where there is a sign, it is taken. -/
lemma signPrefix_of_isSign {cs : List Char} (h : cs.head?.any isSign = true) :
    ∃ ch rest, cs = ch :: rest ∧ ch.toNat < 128 ∧ signPrefix cs = ([ch], rest) := by
  obtain ⟨ch, rest, rfl, hsign⟩ := exists_cons_of_any h
  refine ⟨ch, rest, rfl, isAscii_isSign ch hsign, ?_⟩
  rcases (by simpa [isSign] using hsign : ch = '+' ∨ ch = '-') with rfl | rfl <;> rfl

/-- Where there is no sign, none is taken. -/
lemma signPrefix_of_not_isSign {cs : List Char} (h : cs.head?.any isSign = false) :
    signPrefix cs = ([], cs) := by
  unfold signPrefix
  split
  · cases h
  · cases h
  · rfl

/-! ## Positions and cursors -/

/-- The bytes from the offset of a cursor on are the text ahead of it, as far as ASCII goes. -/
structure Stands (bytes : List UInt8) (c : Cursor) : Prop where
  le : c.offset ≤ bytes.length
  shows : Shows (bytes.drop c.offset) c.rest

/-- The cursor behind what has been taken from the text ahead of it. -/
def past (c : Cursor) (split : List Char × List Char) : Cursor :=
  ⟨c.offset + split.1.length, split.2⟩

/-- A scan from a position on does the same as reading from a cursor, moves the position onwards,
and stays in the bytes. -/
inductive Follows {α : Type} (bytes : List UInt8) (i : Nat) (x : Scan α) :
    Except PathError (α × Cursor) → Prop where
  | ok {a : α} {c : Cursor} (hx : x i = .ok a c.offset) (hle : i ≤ c.offset) (hc : Stands bytes c) :
      Follows bytes i x (.ok (a, c))
  | error {e : PathError} {j : Nat} (hx : x i = .error (.refused e) j) (hle : i ≤ j)
      (hlength : j ≤ bytes.length) : Follows bytes i x (.error e)

section

variable {α β : Type} {bytes : List UInt8} {i j : Nat} {x : Scan α} {f : α → Scan β}

/-- A scan that goes on is followed by the next one. -/
lemma bind_of_ok {a : α} (h : x i = .ok a j) : (x >>= f) i = f a j := by
  change EStateM.bind x f i = f a j
  unfold EStateM.bind
  rw [h]

/-- A scan that stops short is not followed by anything. -/
lemma bind_of_error {stop : Stop} (h : x i = .error stop j) : (x >>= f) i = .error stop j := by
  change EStateM.bind x f i = .error stop j
  unfold EStateM.bind
  rw [h]

/-- Scans that do not go on do as the reading does that stands still. -/
lemma follows_pure {a : α} {c : Cursor} (hc : Stands bytes c) :
    Follows bytes c.offset (pure a) (.ok (a, c)) := .ok rfl le_rfl hc

/-- Scans refuse what the reading refuses. -/
lemma follows_throw {e : PathError} {c : Cursor} (hc : Stands bytes c) :
    Follows bytes c.offset (throw (.refused e) : Scan α) (.error e) := .error rfl le_rfl hc.le

namespace Follows

/-- A scan that looks at something first. -/
lemma of_eq {a : α} {m : Except PathError (β × Cursor)} (hx : x i = .ok a i)
    (h : Follows bytes i (f a) m) : Follows bytes i (x >>= f) m := by
  cases h with
  | ok hf hle hc => exact .ok ((bind_of_ok hx).trans hf) hle hc
  | error hf hle hlength => exact .error ((bind_of_ok hx).trans hf) hle hlength

/-- A scan that goes on is followed by another one. -/
lemma of_ok {a : α} {c : Cursor} {m : Except PathError (β × Cursor)}
    (h : Follows bytes i x (.ok (a, c)))
    (hf : Stands bytes c → Follows bytes c.offset (f a) m) : Follows bytes i (x >>= f) m := by
  cases h with
  | ok hx hle hc =>
    cases hf hc with
    | ok hx' hle' hc' => exact .ok ((bind_of_ok hx).trans hx') (hle.trans hle') hc'
    | error hx' hle' hlength => exact .error ((bind_of_ok hx).trans hx') (hle.trans hle') hlength

/-- A scan that is refused is not followed by another one. -/
lemma of_error {e : PathError} (h : Follows bytes i x (.error e)) :
    Follows bytes i (x >>= f) (.error e) := by
  cases h with
  | error hx hle hlength => exact .error (bind_of_error hx) hle hlength

/-- Scans follow one another as reading does. -/
lemma bind {m : Except PathError (α × Cursor)} {g : α × Cursor → Except PathError (β × Cursor)}
    (h : Follows bytes i x m)
    (hf : ∀ a c, Stands bytes c → Follows bytes c.offset (f a) (g (a, c))) :
    Follows bytes i (x >>= f) (m >>= g) := by
  cases m with
  | ok r => exact h.of_ok (hf r.1 r.2)
  | error e => exact h.of_error

end Follows

end

namespace Stands

variable {bytes : List UInt8} {c : Cursor} {p : Char → Bool}

/-- The position is at the end of the bytes exactly if the cursor is at the end of the text. -/
lemma length_le_iff (h : Stands bytes c) : bytes.length ≤ c.offset ↔ c.rest = [] := by
  obtain ⟨offset, rest⟩ := c
  obtain ⟨-, hshows⟩ := h
  dsimp only at hshows ⊢
  rw [← List.drop_eq_nil_iff]
  generalize bytes.drop offset = bs at hshows ⊢
  cases hshows with
  | nil => exact iff_of_true rfl rfl
  | cons | beyond => exact iff_of_false (List.cons_ne_nil _ _) (List.cons_ne_nil _ _)

/-- The scanner looks whether it is at the end. -/
lemma atEnd_eq (h : Stands bytes c) : atEnd bytes c.offset = .ok c.rest.isEmpty c.offset := by
  have hempty : decide (bytes.length ≤ c.offset) = c.rest.isEmpty := by
    rw [Bool.eq_iff_iff, decide_eq_true_iff, List.isEmpty_iff, h.length_le_iff]
  unfold atEnd
  rw [hempty]

/-- Before the end of the text there is a byte.  It is in the classes that the character is in, and
if that is of ASCII, it can be moved over. -/
lemma exists_byte_eq (h : Stands bytes c) {ch : Char} {rest : List Char}
    (hrest : c.rest = ch :: rest) :
    ∃ b, c.offset < bytes.length ∧ byte bytes c.offset = .ok b c.offset ∧
      (∀ p, IsAscii p → p (asChar b) = p ch) ∧
      (ch.toNat < 128 → asChar b = ch ∧ Stands bytes ⟨c.offset + 1, rest⟩) := by
  obtain ⟨-, hshows⟩ := h
  rw [hrest] at hshows
  obtain ⟨b, bs, hdrop⟩ : ∃ b bs, bytes.drop c.offset = b :: bs := by
    cases hbytes : bytes.drop c.offset with
    | nil => rw [hbytes] at hshows; cases hshows
    | cons b bs => exact ⟨b, bs, rfl⟩
  have hget : bytes[c.offset]? = some b := by
    rw [← List.head?_drop, hdrop]
    rfl
  have htail : bytes.drop (c.offset + 1) = bs := by
    rw [← List.drop_drop, hdrop]
    rfl
  have hlt : c.offset < bytes.length := (List.getElem?_eq_some_iff.mp hget).1
  rw [hdrop] at hshows
  refine ⟨b, hlt, ?_, fun p hp => hshows.class_eq hp, fun hch => ?_⟩
  · unfold byte
    rw [hget]
  · obtain ⟨hchar, -, hnext⟩ := hshows.of_lt hch
    exact ⟨hchar, hlt, htail ▸ hnext⟩

/-- What is of ASCII can be moved over. -/
lemma behind (h : Stands bytes c) {taken rest : List Char} (hrest : c.rest = taken ++ rest)
    (htaken : ∀ ch ∈ taken, ch.toNat < 128) : Stands bytes (past c (taken, rest)) := by
  obtain ⟨hle, hshows⟩ := h
  rw [hrest] at hshows
  obtain ⟨hlength, -, -, hnext⟩ := hshows.of_append htaken
  rw [List.length_drop] at hlength
  rw [List.drop_drop] at hnext
  refine ⟨?_, hnext⟩
  change c.offset + taken.length ≤ bytes.length
  omega

/-- The scanner looks ahead at the first character. -/
lemma ahead_eq (h : Stands bytes c) (hp : IsAscii p) :
    ahead bytes p c.offset = .ok (c.rest.head?.any p) c.offset := by
  unfold ahead
  rw [bind_of_ok h.atEnd_eq]
  cases hrest : c.rest with
  | nil => rfl
  | cons ch rest =>
    obtain ⟨b, -, hb, hclass, -⟩ := h.exists_byte_eq hrest
    change (byte bytes >>= fun b => pure (p (asChar b))) c.offset = _
    rw [bind_of_ok hb, hclass p hp]
    rfl

/-- A class of ASCII characters is moved over in the bytes as it is in the text. -/
lemma skip_follows (h : Stands bytes c) (hp : IsAscii p) :
    Follows bytes c.offset (skip bytes p) (.ok ((), c.skip p)) := by
  obtain ⟨offset, text⟩ := c
  induction text generalizing offset with
  | nil =>
    refine .ok ?_ le_rfl h
    unfold skip
    rw [skipFrom, if_neg (not_lt.mpr (h.length_le_iff.mpr rfl))]
    rfl
  | cons ch rest ih =>
    obtain ⟨b, hlt, hb, hclass, hnext⟩ := h.exists_byte_eq rfl
    have hstep : skip bytes p offset =
        if p ch then skip bytes p (offset + 1) else .ok () offset := by
      unfold skip
      rw [skipFrom, if_pos hlt, hb]
      dsimp only
      rw [hclass p hp]
    cases hch : p ch with
    | false =>
      rw [hch, if_neg (by decide)] at hstep
      have hstop : Cursor.skip p ⟨offset, ch :: rest⟩ = ⟨offset, ch :: rest⟩ := by
        simp [Cursor.skip, hch]
      rw [hstop]
      exact .ok hstep le_rfl h
    | true =>
      rw [hch, if_pos rfl] at hstep
      have hskip : Cursor.skip p ⟨offset, ch :: rest⟩ = Cursor.skip p ⟨offset + 1, rest⟩ := by
        simp [Cursor.skip, hch, Nat.add_assoc, Nat.add_comm 1]
      rw [hskip]
      cases ih _ (hnext (hp ch hch)).2 with
      | ok hx hle hc => exact .ok (hstep.trans hx) ((Nat.le_succ _).trans hle) hc

/-- Digits are moved over and counted. -/
lemma digits_follows (h : Stands bytes c) :
    Follows bytes c.offset (digits bytes)
      (.ok ((c.rest.takeWhile Decimal.isDigit).length, c.skip Decimal.isDigit)) := by
  refine .of_eq (a := c.offset) rfl ((h.skip_follows isAscii_isDigit).of_ok fun hc => ?_)
  refine .of_eq (a := (c.skip Decimal.isDigit).offset) rfl ?_
  have hcount : (c.skip Decimal.isDigit).offset - c.offset =
      (c.rest.takeWhile Decimal.isDigit).length := Nat.add_sub_cancel_left ..
  rw [hcount]
  exact follows_pure hc

/-- A character of ASCII is moved over. -/
lemma advance_follows (h : Stands bytes c) {ch : Char} {rest : List Char}
    (hrest : c.rest = ch :: rest) (hch : ch.toNat < 128) :
    Follows bytes c.offset advance (.ok ((), ⟨c.offset + 1, rest⟩)) := by
  obtain ⟨b, -, -, -, hnext⟩ := h.exists_byte_eq hrest
  exact .ok rfl (Nat.le_succ _) (hnext hch).2

/-- A sign is moved over, if there is one. -/
lemma signAhead_follows (h : Stands bytes c) :
    Follows bytes c.offset (signAhead bytes) (.ok ((), past c (signPrefix c.rest))) := by
  refine .of_eq (h.ahead_eq isAscii_isSign) ?_
  cases hsign : c.rest.head?.any isSign with
  | true =>
    obtain ⟨ch, rest, hrest, hch, htaken⟩ := signPrefix_of_isSign hsign
    rw [htaken]
    exact h.advance_follows hrest hch
  | false =>
    rw [signPrefix_of_not_isSign hsign]
    exact follows_pure h

/-- A sign is moved over, if there is one, where the text goes on. -/
lemma sign_follows (h : Stands bytes c) (hne : c.rest ≠ []) :
    Follows bytes c.offset (sign bytes) (.ok ((), past c (signPrefix c.rest))) := by
  obtain ⟨ch, rest, hrest⟩ := List.exists_cons_of_ne_nil hne
  obtain ⟨b, -, hb, hclass, -⟩ := h.exists_byte_eq hrest
  have hahead : c.rest.head?.any isSign = isSign ch := by
    rw [hrest]
    rfl
  refine .of_eq hb ?_
  rw [hclass isSign isAscii_isSign]
  cases hsign : isSign ch with
  | true =>
    obtain ⟨ch', rest', heq, hch, htaken⟩ := signPrefix_of_isSign (hahead.trans hsign)
    rw [htaken]
    exact h.advance_follows heq hch
  | false =>
    rw [signPrefix_of_not_isSign (hahead.trans hsign)]
    exact follows_pure h

/-- A point and the digits behind it are moved over, if there is one, and the digits are counted. -/
lemma fraction_follows (h : Stands bytes c) :
    Follows bytes c.offset (fraction bytes)
      (.ok ((pointPrefix c.rest).1.length - 1, past c (pointPrefix c.rest))) := by
  refine .of_eq (h.ahead_eq (isAscii_beq (by decide))) ?_
  cases hpoint : c.rest.head?.any (· == '.') with
  | true =>
    obtain ⟨ch, rest, hrest, heq⟩ := exists_cons_of_any hpoint
    obtain rfl : ch = '.' := beq_iff_eq.mp heq
    refine (h.advance_follows hrest (by decide)).of_ok fun hnext => ?_
    have hdigits := hnext.digits_follows
    have hpast : past c ('.' :: rest.takeWhile Decimal.isDigit,
        rest.dropWhile Decimal.isDigit) = Cursor.skip Decimal.isDigit ⟨c.offset + 1, rest⟩ := by
      simp [past, Cursor.skip, Nat.add_assoc, Nat.add_comm 1]
    rw [hrest, pointPrefix, hpast]
    exact hdigits
  | false =>
    have hnone : pointPrefix c.rest = ([], c.rest) := by
      unfold pointPrefix
      split
      · rename_i heq
        rw [heq] at hpoint
        cases hpoint
      · rfl
    rw [hnone]
    exact follows_pure h

end Stands

/-- A scan over what may not be there. -/
def taking (e : PathError) (c : Cursor) :
    Option (List Char × List Char) → Except PathError (Unit × Cursor)
  | some split => .ok ((), past c split)
  | none => .error e

/-- A numeral is taken part by part. -/
lemma taking_numeral? (e : PathError) (c : Cursor) :
    taking e c (numeral? c.rest) =
      let signed := past c (signPrefix c.rest)
      let whole := signed.skip Decimal.isDigit
      let behind := past whole (pointPrefix whole.rest)
      let digits := signed.rest.takeWhile Decimal.isDigit
      if digits.length + ((pointPrefix whole.rest).1.length - 1) = 0 then .error e
      else taking e behind (exponentPrefix? behind.rest) := by
  unfold numeral?
  dsimp only [past, Cursor.skip]
  generalize (signPrefix c.rest).1 = sign
  generalize pointPrefix ((signPrefix c.rest).2.dropWhile Decimal.isDigit) = fraction
  generalize (signPrefix c.rest).2.takeWhile Decimal.isDigit = whole
  have hcount : (whole.isEmpty && decide (fraction.1.length ≤ 1)) = true ↔
      whole.length + (fraction.1.length - 1) = 0 := by
    rw [Bool.and_eq_true, List.isEmpty_iff, decide_eq_true_iff, ← List.length_eq_zero_iff]
    omega
  simp only [hcount]
  split_ifs
  · rfl
  · cases exponentPrefix? fraction.2 with
    | none => rfl
    | some split => simp [taking, past, Nat.add_assoc]

namespace Stands

variable {bytes : List UInt8} {c : Cursor}

/-- An exponent is moved over, if there is its letter; it is refused, if there are no digits. -/
lemma exponent_follows (h : Stands bytes c) (e : PathError) :
    Follows bytes c.offset (exponent bytes (.refused e)) (taking e c (exponentPrefix? c.rest)) := by
  refine .of_eq (h.ahead_eq isAscii_isExponentLetter) ?_
  cases hletter : c.rest.head?.any isExponentLetter with
  | true =>
    obtain ⟨ch, rest, hrest, heq⟩ := exists_cons_of_any hletter
    have heq' : ch = 'e' ∨ ch = 'E' := by
      simpa [isExponentLetter] using heq
    refine (h.advance_follows hrest (isAscii_isExponentLetter ch heq)).of_ok fun hnext => ?_
    refine hnext.signAhead_follows.of_ok fun hsigned => ?_
    refine hsigned.digits_follows.of_ok fun hbehind => ?_
    rw [hrest, exponentPrefix?, if_pos heq']
    dsimp only [past] at hbehind ⊢
    have hpast : past c (ch :: ((signPrefix rest).1 ++
        (signPrefix rest).2.takeWhile Decimal.isDigit),
        (signPrefix rest).2.dropWhile Decimal.isDigit) =
        Cursor.skip Decimal.isDigit
          ⟨c.offset + 1 + (signPrefix rest).1.length, (signPrefix rest).2⟩ := by
      simp only [past, Cursor.skip, List.length_cons, List.length_append,
        Cursor.mk.injEq, and_true]
      omega
    simp only [List.isEmpty_iff, List.length_eq_zero_iff]
    split_ifs
    · exact follows_throw hbehind
    · rw [taking, hpast]
      exact follows_pure hbehind
  | false =>
    have hnone : exponentPrefix? c.rest = some ([], c.rest) := by
      cases hrest : c.rest with
      | nil => rfl
      | cons ch rest =>
        have heq : ¬ (ch = 'e' ∨ ch = 'E') := by
          rw [hrest] at hletter
          simpa [isExponentLetter] using hletter
        rw [exponentPrefix?, if_neg heq]
    rw [hnone]
    exact follows_pure h

/-- A numeral is moved over, if there is one. -/
lemma numeral_follows (h : Stands bytes c) (hne : c.rest ≠ []) (e : PathError) :
    Follows bytes c.offset (numeral bytes (.refused e)) (taking e c (numeral? c.rest)) := by
  refine (h.sign_follows hne).of_ok fun hsigned => ?_
  refine hsigned.digits_follows.of_ok fun hwhole => ?_
  refine hwhole.fraction_follows.of_ok fun hfraction => ?_
  rw [taking_numeral?]
  dsimp only
  split_ifs
  · exact follows_throw hfraction
  · exact hfraction.exponent_follows e

/-- The bytes of a numeral are the text of its decimal, and are moved over. -/
lemma decimal?_eq (h : Stands bytes c) {n : Numeral} {rest : List Char}
    (hrest : c.rest = n.chars ++ rest) :
    decimal? ((bytes.drop c.offset).take
        ((past c (n.chars, rest)).offset - c.offset)) = some n.decimal ∧
      Stands bytes (past c (n.chars, rest)) := by
  have hascii : ∀ ch ∈ n.chars, ch.toNat < 128 := fun ch hch =>
    toNat_lt_of_utf8Size (isNumeral_spec (n.isNumeral_of_mem ch hch)).2.2
  refine ⟨?_, h.behind hrest hascii⟩
  have hshows := h.shows
  rw [hrest] at hshows
  obtain ⟨-, hbytes, hmap, -⟩ := hshows.of_append hascii
  have hlength : (past c (n.chars, rest)).offset - c.offset = n.chars.length :=
    Nat.add_sub_cancel_left ..
  have hall : ((bytes.drop c.offset).take n.chars.length).all (· < 128) = true :=
    List.all_eq_true.mpr fun b hb => decide_eq_true (UInt8.lt_iff_toNat_lt.mpr (hbytes b hb))
  rw [hlength, decimal?, if_pos hall, hmap, n.ofChars?_chars]

/-- The token of a numeral is read as the number that it is. -/
lemma value_follows (h : Stands bytes c) {n : Numeral} {rest : List Char}
    (hrest : c.rest = n.chars ++ rest) :
    Follows bytes (past c (n.chars, rest)).offset (value bytes c.offset)
      (match finiteNumber? n.chars with
        | none => .error (.invalidNumber c.offset)
        | some x => .ok (x, past c (n.chars, rest))) := by
  obtain ⟨hdecimal, hbehind⟩ := h.decimal?_eq hrest
  have hinside : ¬ ((past c (n.chars, rest)).offset < c.offset ∨
      bytes.length < (past c (n.chars, rest)).offset) :=
    not_or.mpr ⟨not_lt.mpr (Nat.le_add_right ..), not_lt.mpr hbehind.le⟩
  refine .of_eq (a := (past c (n.chars, rest)).offset) rfl ?_
  rw [if_neg hinside]
  dsimp only
  rw [hdecimal, n.finiteNumber?_chars]
  change Follows bytes _ (if n.value.isFinite = true then _ else _) _
  cases hfinite : n.value.isFinite with
  | true => exact follows_pure hbehind
  | false =>
    have hinfinite : n.decimal.toBinary32.isInf = true := Decimal.isInf_toBinary32 hfinite
    rw [if_neg (by decide), if_pos hinfinite]
    exact follows_throw hbehind

/-- A number is read from the bytes as from the text. -/
theorem number_follows (h : Stands bytes c) (letter : Char) :
    Follows bytes c.offset (number bytes letter) (c.number letter) := by
  refine (h.skip_follows isAscii_isSeparator).of_ok fun hc => ?_
  refine .of_eq (a := (c.skip isSeparator).offset) rfl ?_
  unfold Cursor.number Cursor.atToken
  generalize c.skip isSeparator = c at hc
  dsimp only
  cases hrest : c.rest with
  | nil =>
    have hend := hc.atEnd_eq
    rw [hrest] at hend
    exact .of_eq (.trans (bind_of_ok hend) rfl) (follows_throw hc)
  | cons ch rest =>
    obtain ⟨b, -, hb, hclass, -⟩ := hc.exists_byte_eq hrest
    have hend := hc.atEnd_eq
    rw [hrest] at hend
    have hno : noNumber bytes c.offset = .ok (isLetter ch) c.offset := by
      refine (bind_of_ok hend).trans ((bind_of_ok hb).trans ?_)
      rw [hclass isLetter isAscii_isLetter]
      rfl
    refine .of_eq hno ?_
    dsimp only
    cases isLetter ch with
    | true => exact follows_throw hc
    | false =>
      have hnumeral := hc.numeral_follows (by rw [hrest]; exact List.cons_ne_nil _ _)
        (.invalidNumber c.offset)
      rw [hrest] at hnumeral
      rw [if_neg (by decide), if_neg (by decide)]
      cases htoken : numeral? (ch :: rest) with
      | none =>
        rw [htoken] at hnumeral
        exact hnumeral.of_error
      | some split =>
        obtain ⟨token, behind⟩ := split
        obtain ⟨n, rfl, hsplit, -⟩ := numeral?_eq_some_iff.mp htoken
        rw [htoken] at hnumeral
        exact hnumeral.of_ok fun _ => hc.value_follows (hrest.trans hsplit)

/-- A pair is read from the bytes as from the text. -/
theorem pair_follows (h : Stands bytes c) (letter : Char) :
    Follows bytes c.offset (pair bytes letter) (c.pair letter) := by
  refine (h.number_follows letter).bind fun x c hc => ?_
  exact (hc.number_follows letter).bind fun y c hc => follows_pure hc

/-- What the first character of a token says of a flag. -/
lemma flag_eq (letter : Char) {ch : Char} {rest : List Char} (hrest : c.atToken.rest = ch :: rest) :
    c.flag letter =
      if ch = '0' then .ok (false, ⟨c.atToken.offset + 1, rest⟩)
      else if ch = '1' then .ok (true, ⟨c.atToken.offset + 1, rest⟩)
      else if isLetter ch then .error (.missingCoordinates letter c.atToken.offset)
      else .error (.invalidNumber c.atToken.offset) := by
  unfold Cursor.flag
  dsimp only
  rw [hrest]
  split
  · rename_i hnil
    cases hnil
  · rename_i heq
    obtain ⟨rfl, rfl⟩ := List.cons.inj heq
    rfl
  · rename_i heq
    obtain ⟨rfl, rfl⟩ := List.cons.inj heq
    rfl
  · rename_i hzero hone heq
    obtain ⟨rfl, rfl⟩ := List.cons.inj heq
    rw [if_neg hzero, if_neg hone]

/-- A flag is read from the bytes as from the text. -/
theorem flag_follows (h : Stands bytes c) (letter : Char) :
    Follows bytes c.offset (flag bytes letter) (c.flag letter) := by
  refine (h.skip_follows isAscii_isSeparator).of_ok fun hc => ?_
  refine .of_eq (a := c.atToken.offset) rfl (.of_eq hc.atEnd_eq ?_)
  cases hrest : c.atToken.rest with
  | nil =>
    have hflag : c.flag letter = .error (.missingCoordinates letter c.atToken.offset) := by
      unfold Cursor.flag
      dsimp only
      rw [hrest]
    rw [hflag]
    change Follows bytes _ (if c.atToken.rest.isEmpty = true then _ else _) _
    rw [hrest]
    exact follows_throw hc
  | cons ch rest =>
    obtain ⟨b, -, hb, hclass, -⟩ := hc.exists_byte_eq hrest
    have hdigit {d : Char} (hd : d.toNat < 128) : asChar b = d ↔ ch = d := by
      rw [← beq_iff_eq, ← beq_iff_eq (a := ch), hclass (· == d) (isAscii_beq hd)]
    change Follows bytes _ (if c.atToken.rest.isEmpty = true then _ else _) _
    rw [hrest]
    refine .of_eq hb ?_
    rw [flag_eq letter hrest]
    simp only [hdigit (d := '0') (by decide), hdigit (d := '1') (by decide),
      hclass isLetter isAscii_isLetter]
    split_ifs with hzero hone
    · exact (hc.advance_follows hrest (by rw [hzero]; decide)).of_ok follows_pure
    · exact (hc.advance_follows hrest (by rw [hone]; decide)).of_ok follows_pure
    · exact follows_throw hc
    · exact follows_throw hc

/-- Whether another set of arguments follows is seen in the bytes as in the text, behind the
separators. -/
theorem more_follows (h : Stands bytes c) :
    Follows bytes c.offset (more bytes) (.ok (c.more, c.atToken)) := by
  refine (h.skip_follows isAscii_isSeparator).of_ok fun hc => ?_
  have hmore : c.more = (c.skip isSeparator).rest.head?.any startsNumber := by
    unfold Cursor.more Cursor.atToken
    cases (c.skip isSeparator).rest <;> rfl
  exact .ok (hmore ▸ hc.ahead_eq isAscii_startsNumber) le_rfl hc

/-- A set of arguments is read from the bytes as from the text. -/
theorem arguments_follows (h : Stands bytes c) (k : Command) (letter : Char) :
    Follows bytes c.offset (arguments bytes k letter) (k.arguments letter c) := by
  cases k with
  | move | line | smoothQuadratic =>
    exact (h.pair_follows letter).bind fun p c hc => follows_pure hc
  | horizontal | vertical =>
    exact (h.number_follows letter).bind fun x c hc => follows_pure hc
  | cubic =>
    refine (h.pair_follows letter).bind fun p c hc => ?_
    refine (hc.pair_follows letter).bind fun q c hc => ?_
    exact (hc.pair_follows letter).bind fun r c hc => follows_pure hc
  | smoothCubic | quadratic =>
    refine (h.pair_follows letter).bind fun q c hc => ?_
    exact (hc.pair_follows letter).bind fun r c hc => follows_pure hc
  | arc =>
    refine (h.number_follows letter).bind fun rx c hc => ?_
    refine (hc.number_follows letter).bind fun ry c hc => ?_
    refine (hc.number_follows letter).bind fun rotation c hc => ?_
    refine (hc.flag_follows letter).bind fun large c hc => ?_
    refine (hc.flag_follows letter).bind fun sweep c hc => ?_
    exact (hc.pair_follows letter).bind fun p c hc => follows_pure hc
  | close => exact follows_pure h

end Stands

end ByteScanner

end PathData

end SvgDisplayList
