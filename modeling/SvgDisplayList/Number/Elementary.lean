import SvgDisplayList.Number.Binary32

/-!
# Elementary functions in single precision

Colours and the expressions in style values need roots, logarithms and the inverse trigonometric
functions.  Where the result is the single-precision number nearest to the exact value, the function
is evaluated in double precision and rounded once.

Rounding to an integer and the remainder of a division work on the value of a number, and are exact.
-/

namespace SvgDisplayList

namespace Binary32

/-! ### Functions evaluated in double precision -/

/-- A double-precision function as one in single precision. -/
def rounded (f : Float → Float) (x : Float32) : Float32 := ofDouble (f (toDouble x))

/-- The cube root, with the sign of its argument. -/
def cubeRoot (x : Float32) : Float32 := rounded Float.cbrt x

def tangent (x : Float32) : Float32 := rounded Float.tan x

def arcSine (x : Float32) : Float32 := rounded Float.asin x

def arcCosine (x : Float32) : Float32 := rounded Float.acos x

def arcTangent (x : Float32) : Float32 := rounded Float.atan x

/-- The angle of the vector `(x, y)` in radians. -/
def polarAngle (y x : Float32) : Float32 := ofDouble ((toDouble y).atan2 (toDouble x))

/-- The length of the vector `(x, y)`, infinite if one of its sides is. -/
def hypotenuse (x y : Float32) : Float32 :=
  if x.isInf || y.isInf then infinity
  else
    let x := toDouble x
    let y := toDouble y
    ofDouble (x * x + y * y).sqrt

/-- The logarithm of a number to a base. -/
def logarithm (x base : Float32) : Float32 := x.log / base.log

/-! ### Integers -/

/-- A magnitude rounded to an integer by a rule for fractions, which is told the sign; what is not
finite stays as it is. -/
def toInteger (rule : Bool → Nat → Nat → Nat) (x : Float32) : Float32 :=
  match parts? x with
  | some p => ofRatio p.negative (rule p.negative p.ratio.1 p.ratio.2) 1
  | none => x

/-- The nearest integer, a half away from zero. -/
def nearestInteger (x : Float32) : Float32 := toInteger (fun _ num den => roundHalfUp num den) x

/-- The nearest integer towards zero. -/
def truncated (x : Float32) : Float32 := toInteger (fun _ num den => num / den) x

/-- The integer part of a finite number. -/
def integerPart? (x : Float32) : Option Int :=
  (parts? x).map fun p =>
    let magnitude : Int := (p.ratio.1 / p.ratio.2 : Nat)
    if p.negative then -magnitude else magnitude

/-- The least integer that is not below `x`. -/
def ceiling (x : Float32) : Float32 :=
  toInteger (fun negative num den => if negative then num / den else (num + den - 1) / den) x

/-- The remainder of `x` by `y`, with the sign of `x`.  There is none of what is not finite, and
none by zero. -/
def modulo (x y : Float32) : Float32 :=
  match parts? x, parts? y with
  | some p, some q =>
    if q.mantissa = 0 then nan
    else
      ofRatio p.negative ((p.ratio.1 * q.ratio.2) % (q.ratio.1 * p.ratio.2)) (p.ratio.2 * q.ratio.2)
  | some _, none => if y.isNaN then nan else x
  | none, _ => nan

/-- One with the sign of a number; zeros keep theirs, and what is not a number stays so. -/
def sign (x : Float32) : Float32 :=
  if x.isNaN || x == 0 then x else if x < 0 then -1 else 1

end Binary32

end SvgDisplayList
