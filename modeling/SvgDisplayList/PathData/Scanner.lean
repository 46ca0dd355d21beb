import SvgDisplayList.Number.Decimal
import SvgDisplayList.Geometry.Point

/-!
# Scanning path data

A cursor is a position in path data: the number of bytes behind it and the text ahead of it.  The
scanner reads numbers, flags and pairs from it.  A number is the longest numeral at the cursor, so
that `1-2` and `.5.5` hold two numbers each; a flag is a single digit and may be followed by
anything.

Errors carry the offset in bytes of the token that is at fault.
-/

namespace SvgDisplayList

/-- Why path data is refused. -/
inductive PathError where
  | invalidNumber (offset : Nat)
  | missingCoordinates (command : Char) (offset : Nat)
  | unknownCommand (command : Char) (offset : Nat)
  | missingMoveTo
deriving DecidableEq, Repr

namespace PathError

def message : PathError → String
  | invalidNumber offset => "malformed number at byte " ++ toString offset
  | missingCoordinates command offset =>
    "command '" ++ command.toString ++ "' is missing coordinates at byte " ++ toString offset
  | unknownCommand command offset =>
    "unknown path command '" ++ command.toString ++ "' at byte " ++ toString offset
  | missingMoveTo => "path data must start with a moveto"

end PathError

namespace PathData

/-- An ASCII letter. -/
def isLetter (c : Char) : Bool := ('a' ≤ c && c ≤ 'z') || ('A' ≤ c && c ≤ 'Z')

/-- What may stand between two tokens. -/
def isSeparator (c : Char) : Bool := c == ' ' || c == '\n' || c == '\r' || c == '\t' || c == ','

/-- What a number may start with. -/
def startsNumber (c : Char) : Bool := Decimal.isDigit c || c == '+' || c == '-' || c == '.'

/-- A position in path data.  All characters behind it are of one byte. -/
structure Cursor where
  offset : Nat
  rest : List Char

namespace Cursor

/-- The cursor behind the characters of a class. -/
def skip (p : Char → Bool) (c : Cursor) : Cursor :=
  ⟨c.offset + (c.rest.takeWhile p).length, c.rest.dropWhile p⟩

/-- The cursor at the next token. -/
def atToken (c : Cursor) : Cursor := c.skip isSeparator

/-- Whether another set of arguments follows without a letter of its own. -/
def more (c : Cursor) : Bool :=
  match c.atToken.rest with
  | ch :: _ => startsNumber ch
  | [] => false

end Cursor

/-! ### Numerals -/

/-- The sign at the start of a text, and the text behind it. -/
def signPrefix : List Char → List Char × List Char
  | '+' :: r => (['+'], r)
  | '-' :: r => (['-'], r)
  | r => ([], r)

/-- The point at the start of a text with the digits behind it, and the text behind them. -/
def pointPrefix : List Char → List Char × List Char
  | '.' :: r => ('.' :: r.takeWhile Decimal.isDigit, r.dropWhile Decimal.isDigit)
  | r => ([], r)

/-- The exponent at the start of a text and the text behind it; `none` for a letter `e` without
digits. -/
def exponentPrefix? : List Char → Option (List Char × List Char)
  | [] => some ([], [])
  | e :: r =>
    if e = 'e' ∨ e = 'E' then
      let (sign, r) := signPrefix r
      let digits := r.takeWhile Decimal.isDigit
      if digits.isEmpty then none else some (e :: (sign ++ digits), r.dropWhile Decimal.isDigit)
    else some ([], e :: r)

/-- The longest numeral at the start of a text and the text behind it. -/
def numeral? (cs : List Char) : Option (List Char × List Char) :=
  let (sign, r) := signPrefix cs
  let whole := r.takeWhile Decimal.isDigit
  let (fraction, r) := pointPrefix (r.dropWhile Decimal.isDigit)
  if whole.isEmpty && fraction.length ≤ 1 then none
  else (exponentPrefix? r).map fun (exponent, r) => (sign ++ whole ++ fraction ++ exponent, r)

namespace Cursor

/-- The number at the cursor, as an argument of a command. -/
def number (command : Char) (c : Cursor) : Except PathError (Float32 × Cursor) :=
  let c := c.atToken
  match c.rest with
  | [] => .error (.missingCoordinates command c.offset)
  | ch :: _ =>
    if isLetter ch then .error (.missingCoordinates command c.offset)
    else
      match numeral? c.rest with
      | none => .error (.invalidNumber c.offset)
      | some (token, rest) =>
        match finiteNumber? token with
        | none => .error (.invalidNumber c.offset)
        | some x => .ok (x, ⟨c.offset + token.length, rest⟩)

/-- The pair of numbers at the cursor. -/
def pair (command : Char) (c : Cursor) : Except PathError (Point × Cursor) := do
  let (x, c) ← c.number command
  let (y, c) ← c.number command
  return (⟨x, y⟩, c)

/-- The flag at the cursor. -/
def flag (command : Char) (c : Cursor) : Except PathError (Bool × Cursor) :=
  let c := c.atToken
  match c.rest with
  | [] => .error (.missingCoordinates command c.offset)
  | '0' :: r => .ok (false, ⟨c.offset + 1, r⟩)
  | '1' :: r => .ok (true, ⟨c.offset + 1, r⟩)
  | ch :: _ =>
    if isLetter ch then .error (.missingCoordinates command c.offset)
    else .error (.invalidNumber c.offset)

end Cursor

end PathData

end SvgDisplayList
