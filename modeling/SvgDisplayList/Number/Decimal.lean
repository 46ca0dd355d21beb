import SvgDisplayList.Number.Binary32

/-!
# Decimal numerals

The numerals of attribute values: an optional sign, digits with at most one point among or around
them, and an optional exponent.  A numeral denotes `± coefficient · 10 ^ exponent` exactly; it is
rounded once, to the nearest single-precision number.  The words for infinity and for what is not a
number are not numerals here, because no attribute accepts their values.
-/

namespace SvgDisplayList

/-- The exact value of a numeral, `± coefficient · 10 ^ exponent`. -/
structure Decimal where
  negative : Bool
  coefficient : Nat
  exponent : Int
deriving Repr, DecidableEq

namespace Decimal

/-- An ASCII digit. -/
def isDigit (c : Char) : Bool := '0' ≤ c && c ≤ '9'

/-- The value of a digit. -/
def digitValue (c : Char) : Nat := c.toNat - '0'.toNat

/-- The value of a run of digits. -/
def digitsValue (cs : List Char) : Nat :=
  cs.foldl (fun n c => 10 * n + digitValue c) 0

/-- A leading sign, and what follows it. -/
def splitSign : List Char → Bool × List Char
  | '+' :: r => (false, r)
  | '-' :: r => (true, r)
  | r => (false, r)

/-- A leading point and the digits behind it, and what follows them. -/
def splitFraction : List Char → List Char × List Char
  | '.' :: r => (r.takeWhile isDigit, r.dropWhile isDigit)
  | r => ([], r)

/-- The exponent that makes up all of a text: nothing at all, or a letter `e` with a signed run of
digits. -/
def exponentOf? : List Char → Option Int
  | [] => some 0
  | c :: r =>
    if c = 'e' ∨ c = 'E' then
      let (negative, ds) := splitSign r
      if ds.isEmpty || !ds.all isDigit then none
      else some (if negative then -(digitsValue ds : Int) else digitsValue ds)
    else none

/-- The numeral that makes up all of a text. -/
def ofChars? (cs : List Char) : Option Decimal :=
  let (negative, unsigned) := splitSign cs
  let whole := unsigned.takeWhile isDigit
  let (fraction, rest) := splitFraction (unsigned.dropWhile isDigit)
  if whole.isEmpty && fraction.isEmpty then none
  else
    (exponentOf? rest).map fun e =>
      ⟨negative, digitsValue (whole ++ fraction), e - fraction.length⟩

/-- The numeral that makes up all of a text. -/
def ofText? (s : String) : Option Decimal := ofChars? s.toList

/-- The single-precision number nearest to a decimal.  A decimal of more than forty whole digits is
beyond the largest number, and one that starts more than fifty places behind the point is below half
the least one, so that neither has to be written out. -/
def toBinary32 (d : Decimal) : Float32 :=
  if d.coefficient = 0 then Binary32.ofRatio d.negative 0 1
  else
    let size : Int := (Nat.toDigits 10 d.coefficient).length + d.exponent
    if 40 < size then (if d.negative then Binary32.negInfinity else Binary32.infinity)
    else if size < -50 then Binary32.ofRatio d.negative 0 1
    else
      match d.exponent with
      | .ofNat n => Binary32.ofRatio d.negative (d.coefficient * Nat.pow 10 n) 1
      | .negSucc n => Binary32.ofRatio d.negative d.coefficient (Nat.pow 10 (n + 1))

end Decimal

/-- The finite number that a text denotes. -/
def finiteNumber? (cs : List Char) : Option Float32 :=
  match Decimal.ofChars? cs with
  | some d => let x := d.toBinary32; if x.isFinite then some x else none
  | none => none

end SvgDisplayList
