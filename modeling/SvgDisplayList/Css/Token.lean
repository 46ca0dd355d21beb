import SvgDisplayList.Number.Binary32

/-!
# Tokens of style values

A style value is cut into tokens.  Identifiers may hold escapes, a number may carry a per cent sign
or a unit, and comments separate tokens without leaving a trace.  Only what a colour can be made of
is told apart; every other token is `other` and makes a colour invalid.

Numbers are read in double precision, digit by digit, and rounded once at the end.
-/

namespace SvgDisplayList

namespace Css

/-- The kinds of brackets. -/
inductive Bracket where
  | round
  | square
  | curly
deriving DecidableEq, Repr

/-- A token of a style value. -/
inductive Token where
  | ident (name : String)
  | function (name : String)
  | hash (name : String)
  | number (value : Float32)
  | percentage (unitValue : Float32)
  | dimension (value : Float32) (unit : String)
  | comma
  | delim (c : Char)
  | space
  | opening (b : Bracket)
  | closing (b : Bracket)
  | other

/-- White space between tokens. -/
def isSpace (c : Char) : Bool := c == ' ' || c == '\t' || c == '\n' || c == '\r' || c == '\x0c'

/-- A line end, which no escape may continue over. -/
def isLineEnd (c : Char) : Bool := c == '\n' || c == '\r' || c == '\x0c'

/-- What an identifier is made of. -/
def isNameChar (c : Char) : Bool :=
  c.isAlphanum || c == '_' || c == '-' || c == '\x00' || 0x80 ≤ c.toNat

/-- What an identifier starts with. -/
def isNameStart (c : Char) : Bool := c.isAlpha || c == '_' || c == '\x00' || 0x80 ≤ c.toNat

/-- Whether a backslash with this text behind it starts an escape. -/
def startsEscape : List Char → Bool
  | c :: _ => !isLineEnd c
  | [] => true

/-- Whether a text starts with an identifier. -/
def startsIdent : List Char → Bool
  | '-' :: c :: r => isNameStart c || c == '-' || (c == '\\' && startsEscape r)
  | '\\' :: r => startsEscape r
  | c :: _ => isNameStart c
  | [] => false

/-- Whether a text starts with a number, apart from its sign. -/
def startsDigits : List Char → Bool
  | '.' :: c :: _ => c.isDigit
  | c :: _ => c.isDigit
  | [] => false

/-! ### Names -/

/-- The value of a hexadecimal digit. -/
def hexDigit? (c : Char) : Option Nat :=
  if c.isDigit then some (c.toNat - 48)
  else if 'a' ≤ c && c ≤ 'f' then some (c.toNat - 87)
  else if 'A' ≤ c && c ≤ 'F' then some (c.toNat - 55)
  else none

/-- The character of an escaped code point; one that no character has becomes the replacement
character. -/
def escapedChar (n : Nat) : Char :=
  if n = 0 ∨ 0x10ffff < n ∨ (0xd800 ≤ n ∧ n ≤ 0xdfff) then Char.ofNat 0xfffd else Char.ofNat n

/-- The hexadecimal digits of an escape, at most `n` of them, and the text behind them. -/
def hexDigits : (n : Nat) → (value : Nat) → List Char → Nat × List Char
  | n + 1, value, c :: r =>
    match hexDigit? c with
    | some d => hexDigits n (16 * value + d) r
    | none => (value, c :: r)
  | _, value, r => (value, r)

/-- The text behind the single blank that may end an escape. -/
def dropBlank : List Char → List Char
  | '\r' :: '\n' :: r => r
  | c :: r => if isSpace c then r else c :: r
  | [] => []

/-- The character of an escape and the text behind it, from behind the backslash. -/
def escape : List Char → Char × List Char
  | [] => (Char.ofNat 0xfffd, [])
  | c :: r =>
    match hexDigit? c with
    | some d =>
      let (value, rest) := hexDigits 5 d r
      (escapedChar value, dropBlank rest)
    | none => (if c = '\x00' then Char.ofNat 0xfffd else c, r)

/-- The name at the start of a text and the text behind it.  Each turn consumes a character. -/
def nameFrom : (turns : Nat) → List Char → List Char × List Char
  | 0, r => ([], r)
  | turns + 1, '\\' :: r =>
    if startsEscape r then
      let (c, r) := escape r
      let (name, rest) := nameFrom turns r
      (c :: name, rest)
    else ([], '\\' :: r)
  | turns + 1, c :: r =>
    if isNameChar c then
      let (name, rest) := nameFrom turns r
      ((if c = '\x00' then Char.ofNat 0xfffd else c) :: name, rest)
    else ([], c :: r)
  | _, [] => ([], [])

/-- The name at the start of a text and the text behind it. -/
def name (cs : List Char) : String × List Char :=
  let (n, rest) := nameFrom (cs.length + 1) cs
  (String.ofList n, rest)

/-! ### Numbers -/

/-- The value of a digit. -/
def digit (c : Char) : Float :=
  Float.ofBits (UInt64.ofNat (BinaryFormat.double.roundRatio (c.toNat - 48) 1))

/-- A run of digits as a whole number. -/
def wholePart (ds : List Char) : Float := ds.foldl (fun v d => v * 10 + digit d) 0

/-- A run of digits as decimal places. -/
def fractionPart (ds : List Char) : Float :=
  (ds.foldl (fun (p : Float × Float) d => (p.1 + digit d * p.2, p.2 * 0.1)) (0, 0.1)).1

/-- A sign and the text behind it. -/
def sign : List Char → Float × List Char
  | '-' :: r => (-1, r)
  | '+' :: r => (1, r)
  | r => (1, r)

/-- Whether a text goes on with an exponent. -/
def startsExponent : List Char → Bool
  | e :: c :: r =>
    (e == 'e' || e == 'E') &&
      (c.isDigit || ((c == '+' || c == '-') && (match r with | d :: _ => d.isDigit | [] => false)))
  | _ => false

/-- The number at the start of a text and the text behind it. -/
def numeral (cs : List Char) : Float × List Char :=
  let (s, r) := sign cs
  let whole := wholePart (r.takeWhile Char.isDigit)
  let r := r.dropWhile Char.isDigit
  let hasFraction := r.head? == some '.' && startsDigits r
  let behind := if hasFraction then r.drop 1 else r
  let fraction := if hasFraction then fractionPart (behind.takeWhile Char.isDigit) else 0
  let r := if hasFraction then behind.dropWhile Char.isDigit else r
  let value := s * (whole + fraction)
  if startsExponent r then
    let (s, r) := sign (r.drop 1)
    let exponent := wholePart (r.takeWhile Char.isDigit)
    (value * Float.pow 10 (s * exponent), r.dropWhile Char.isDigit)
  else (value, r)

/-- The numeric token at the start of a text and the text behind it. -/
def numeric (cs : List Char) : Token × List Char :=
  let (value, r) := numeral cs
  match r with
  | '%' :: r => (.percentage (Binary32.ofDouble (value / 100)), r)
  | r =>
    let v := Binary32.ofDouble value
    if startsIdent r then
      let (unit, r) := name r
      (.dimension v unit, r)
    else (.number v, r)

/-! ### Tokens -/

/-- The text behind a comment, from inside of it. -/
def afterComment : List Char → List Char
  | '*' :: '/' :: r => r
  | _ :: r => afterComment r
  | [] => []

/-- The text behind a quoted string, from inside of it.  A line end breaks it off. -/
def afterString (quote : Char) : List Char → List Char
  | '\\' :: _ :: r => afterString quote r
  | c :: r => if c == quote then r else if isLineEnd c then c :: r else afterString quote r
  | [] => []

/-- The identifier or function at the start of a text and the text behind it. -/
def identLike (cs : List Char) : Token × List Char :=
  match name cs with
  | (n, '(' :: r) => (.function n, r)
  | (n, r) => (.ident n, r)

/-- The token at the start of a text, unless a comment stands there, and the text behind. -/
def next (c : Char) (r : List Char) : Option Token × List Char :=
  if isSpace c then (some .space, r.dropWhile isSpace)
  else if c == '/' && r.head? == some '*' then (none, afterComment (r.drop 1))
  else if c == '"' || c == '\'' then (some .other, afterString c r)
  else if c == '#' then
    let named := startsIdent r || (match r with | d :: _ => d.isDigit || d == '-' | [] => false)
    if named then
      let (n, r) := name r
      (some (.hash n), r)
    else (some (.delim '#'), r)
  else if startsDigits (c :: r) || ((c == '+' || c == '-') && startsDigits r) then
    let (t, r) := numeric (c :: r)
    (some t, r)
  else if startsIdent (c :: r) then
    let (t, r) := identLike (c :: r)
    (some t, r)
  else
    let token : Token := match c with
      | ',' => .comma
      | '(' => .opening .round
      | ')' => .closing .round
      | '[' => .opening .square
      | ']' => .closing .square
      | '\x7b' => .opening .curly
      | '\x7d' => .closing .curly
      | ':' => .other
      | ';' => .other
      | c => .delim c
    (some token, r)

/-- The tokens of a text.  Each turn consumes a character. -/
def tokensFrom : (turns : Nat) → List Char → List Token
  | 0, _ => []
  | _, [] => []
  | turns + 1, c :: r =>
    let (token?, rest) := next c r
    token?.toList ++ tokensFrom turns rest

/-- The tokens of a text. -/
def tokens (cs : List Char) : List Token := tokensFrom cs.length cs

end Css

end SvgDisplayList
