import SvgDisplayList.Number.Binary32

/-!
# Fixed-point user units and the milli grid

Coordinates that leave the compiler are snapped to thousandths of a user unit.  The way there leads
through a fixed-point number with thirty-two fractional bits: a thousandth is not a whole number of
its units, so both directions, `FixedPoint.ofMilli` and `FixedPoint.toMilli`, round to the nearest
and a half away from zero, and both saturate at the ends of the sixty-four-bit range.

`snap` is the composite on single-precision numbers: it lands on the thousandth nearest to a number,
and what is not finite lands on zero.
-/

namespace SvgDisplayList

/-- A signed number of `2 ^ -32` user units. -/
structure FixedPoint where
  bits : Int64
deriving Repr, DecidableEq

/-- The sixty-four-bit integer nearest to an integer. -/
def saturate (i : Int) : Int64 :=
  Int64.ofInt (max (-0x8000000000000000) (min 0x7fffffffffffffff i))

/-- The quotient of an integer by a positive even number, rounded to the nearest, a half away from
zero. -/
def divRoundAway (i : Int) (den : Nat) : Int :=
  if 0 ≤ i then (i + (den / 2 : Nat)).tdiv den else (i - (den / 2 : Nat)).tdiv den

namespace FixedPoint

def zero : FixedPoint := ⟨0⟩

/-- The fixed-point number nearest to a number of thousandths. -/
def ofMilli (milli : Int64) : FixedPoint :=
  ⟨saturate (divRoundAway (milli.toInt * 0x100000000) 1000)⟩

/-- The number of thousandths nearest to a fixed-point number. -/
def toMilli (p : FixedPoint) : Int64 :=
  saturate (divRoundAway (p.bits.toInt * 1000) 0x100000000)

/-- The number of thousandths nearest to a number, a half away from zero; zero for what is not
finite. -/
def milliOf (x : Float32) : Int64 :=
  match Binary32.parts? x with
  | some p =>
    let milli : Int := roundHalfUp (1000 * p.ratio.1) p.ratio.2
    saturate (if p.negative then -milli else milli)
  | none => 0

/-- The fixed-point number on the milli grid nearest to a number. -/
def ofNumber (x : Float32) : FixedPoint := ofMilli (milliOf x)

/-- The single-precision number nearest to a fixed-point one. -/
def toNumber (p : FixedPoint) : Float32 :=
  Binary32.ofRatio (decide (p.bits < 0)) p.bits.toInt.natAbs 0x100000000

/-- Which side of zero a number lies on. -/
def sign (p : FixedPoint) : Ordering := compare p.bits.toInt 0

end FixedPoint

/-- A single-precision number moved to the milli grid: the number of thousandths is rounded to
single precision, and so is its quotient by a thousand. -/
def snap (x : Float32) : Float32 :=
  match Binary32.parts? (Binary32.ofInt (FixedPoint.ofNumber x).toMilli.toInt) with
  | some p => Binary32.ofRatio p.negative p.ratio.1 (1000 * p.ratio.2)
  | none => 0

end SvgDisplayList
