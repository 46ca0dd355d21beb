import SvgDisplayList.Number.Binary32

/-!
# The shortest decimal of a number

A single-precision number is written with the fewest decimal digits that read back as the same
number, always in positional notation.  The decimals that read back as `m · 2 ^ e` fill an interval
around it: half a step of the grid to each side, a quarter below when the number is the first of its
binade, and the two ends belong to it exactly when the mantissa is even.  `Shortest.digits` walks
the decimal grids `10 ^ k` from coarse to fine and stops at the first grid with a point in that
interval; of two such points it takes the nearer, and the upper one when the number lies in the
middle.
-/

namespace SvgDisplayList

namespace Shortest

/-- A positive decimal `coefficient · 10 ^ exponent`. -/
structure Digits where
  coefficient : Nat
  exponent : Int
deriving Repr, DecidableEq

/-- The interval of fractions that round to a number, in quarter steps of the grid below it: the
number is `4 · mantissa` of them. -/
structure Interval where
  low : Nat
  center : Nat
  high : Nat
  closed : Bool

/-- The interval that rounds to `m · 2 ^ e` in single precision. -/
def interval (m : Nat) (e : Int) : Interval :=
  ⟨4 * m - (if m = 0x800000 ∧ -149 < e then 1 else 2), 4 * m, 4 * m + 2, m % 2 = 0⟩

/-- The number of quarter steps in one step of the decimal grid `10 ^ k`, as a fraction. -/
def gridStep (e k : Int) : Nat × Nat :=
  let tens := match k with
    | .ofNat n => (Nat.pow 10 n, 1)
    | .negSucc n => (1, Nat.pow 10 (n + 1))
  match e - 2 with
  | .ofNat n => (tens.1, tens.2 * Nat.pow 2 n)
  | .negSucc n => (tens.1 * Nat.pow 2 (n + 1), tens.2)

/-- The point of the decimal grid `10 ^ k` that stands for `m · 2 ^ e`, if one lies in its
interval. -/
def onGrid? (m : Nat) (e k : Int) : Option Nat :=
  let i := interval m e
  let (num, den) := gridStep e k
  let inside (c : Nat) : Bool :=
    if i.closed then i.low * den ≤ c * num && c * num ≤ i.high * den
    else i.low * den < c * num && c * num < i.high * den
  let below := i.center * den / num
  let above := below + 1
  let belowIn := inside below
  let aboveIn := inside above
  if belowIn && aboveIn then
    some (if i.center * den - below * num < above * num - i.center * den then below else above)
  else if belowIn then some below
  else if aboveIn then some above
  else none

/-- A decimal exponent that is certainly coarse enough: `m · 2 ^ e < 10 ^ coarsest`. -/
def coarsest (m : Nat) (e : Int) : Int :=
  ((m.log2 : Int) + 1 + e) * 30103 / 100000 + 1

/-- The shortest decimal of the positive number `m · 2 ^ e`. -/
def digits (m : Nat) (e : Int) : Digits :=
  let top := coarsest m e
  let hit (i : Nat) : Option Digits := (onGrid? m e (top - i)).map fun c => ⟨c, top - i⟩
  ((List.range 16).findSome? hit).getD ⟨0, 0⟩

/-- The positional notation of a decimal: no exponent, no point without digits behind it. -/
def Digits.positional (d : Digits) : String :=
  let text := (Nat.toDigits 10 d.coefficient)
  match d.exponent with
  | .ofNat n => String.ofList (text ++ List.replicate n '0')
  | .negSucc n =>
    let places := n + 1
    let padded := List.replicate (places + 1 - text.length) '0' ++ text
    let whole := padded.take (padded.length - places)
    let fraction := padded.drop (padded.length - places)
    String.ofList (whole ++ '.' :: fraction)

end Shortest

namespace Binary32

/-- The text of a number: its shortest decimal, with the sign of a negative zero kept, and a word
for what is not finite. -/
def text (x : Float32) : String :=
  match parts? x with
  | some p =>
    let magnitude :=
      if p.mantissa = 0 then "0" else (Shortest.digits p.mantissa p.exponent).positional
    if p.negative then "-" ++ magnitude else magnitude
  | none => if x.isNaN then "NaN" else if x < 0 then "-inf" else "inf"

end Binary32

end SvgDisplayList
