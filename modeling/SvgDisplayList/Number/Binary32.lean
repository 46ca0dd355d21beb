/-!
# Single-precision numbers as signed dyadic fractions

Every coordinate of a drawing is a single-precision number.  Where the rule of an operation is the
IEEE one (sums, products, quotients, square roots, comparisons) the library uses `Float32` itself.
Where the rule is about the *value* of a number, this module opens the number up: a finite number is
`± m · 2 ^ e` with a natural number `m`, and `Binary32.ofRatio` is the way back, rounding an
arbitrary fraction to the nearest number, ties to the even one.

Everything that reads or writes decimals, snaps coordinates or widens a number to double precision
is stated through these two directions.  Numbers of double precision have the same two
(`Binary64.parts?`, `Binary64.ofRatio`).
-/

namespace SvgDisplayList

/-- A finite binary number `± mantissa · 2 ^ exponent`.  The sign is kept apart from the mantissa,
so that both zeros have a form of their own. -/
structure BinaryParts where
  negative : Bool
  mantissa : Nat
  exponent : Int
deriving Repr, DecidableEq

namespace BinaryParts

/-- The magnitude of the number as a fraction with positive denominator. -/
def ratio (p : BinaryParts) : Nat × Nat :=
  match p.exponent with
  | .ofNat n => (p.mantissa * Nat.pow 2 n, 1)
  | .negSucc n => (p.mantissa, Nat.pow 2 (n + 1))

end BinaryParts

/-- The quotient `num / den` rounded to the nearest natural number, an exact half to the even
one. -/
def roundHalfEven (num den : Nat) : Nat :=
  let q := num / den
  let r := num % den
  if 2 * r < den then q
  else if den < 2 * r then q + 1
  else if q % 2 = 0 then q else q + 1

/-- The quotient `num / den` rounded to the nearest natural number, an exact half upwards. -/
def roundHalfUp (num den : Nat) : Nat :=
  (2 * num + den) / (2 * den)

/-! ### A binary format

A format is given by the number of mantissa bits, hidden bit included, and the least exponent of the
last bit.  `roundRatio` places a fraction on the grid of its own binade and rounds there; the result
is the bit pattern of the magnitude, in which a carry out of the mantissa lands in the exponent
field of the next binade by itself. -/

/-- An IEEE interchange format: `precision` counts the hidden bit, `minExponent` is the weight of
the last bit of the subnormal numbers. -/
structure BinaryFormat where
  precision : Nat
  minExponent : Int
  infinity : Nat

namespace BinaryFormat

/-- Single precision. -/
def single : BinaryFormat := ⟨24, -149, 0x7f800000⟩

/-- Double precision. -/
def double : BinaryFormat := ⟨53, -1074, 0x7ff0000000000000⟩

/-- The weight of the last mantissa bit of a number in the binade of `num / den`. -/
def exponentOf (f : BinaryFormat) (num den : Nat) : Int :=
  let guess : Int := (num.log2 : Int) - (den.log2 : Int)
  -- `2 ^ (guess - 1) < num / den < 2 ^ (guess + 1)`
  let below : Bool := match guess with
    | .ofNat n => num < den * Nat.pow 2 n
    | .negSucc n => num * Nat.pow 2 (n + 1) < den
  max f.minExponent ((if below then guess - 1 else guess) - (f.precision - 1 : Nat))

/-- The bit pattern, without sign, of the number nearest to `num / den`; ties go to the even
mantissa, and a fraction beyond the largest number becomes infinite. -/
def roundRatio (f : BinaryFormat) (num den : Nat) : Nat :=
  if num = 0 then 0
  else
    let e := f.exponentOf num den
    let m := match e with
      | .ofNat n => roundHalfEven num (den * Nat.pow 2 n)
      | .negSucc n => roundHalfEven (num * Nat.pow 2 (n + 1)) den
    let hidden := Nat.pow 2 (f.precision - 1)
    let bits := if m < hidden then m else (e - f.minExponent).toNat * hidden + m
    min bits f.infinity

end BinaryFormat

namespace Binary64

/-- The parts of a finite number of double precision; `none` for the infinities and for what is not
a number. -/
def parts? (x : Float) : Option BinaryParts :=
  let bits := x.toBits.toNat
  let negative := bits / 0x8000000000000000 == 1
  let field := bits / 0x10000000000000 % 0x800
  let fraction := bits % 0x10000000000000
  if field = 2047 then none
  else if field = 0 then some ⟨negative, fraction, -1074⟩
  else some ⟨negative, 0x10000000000000 + fraction, Int.ofNat field - 1075⟩

/-- The number of double precision nearest to `± num / den`. -/
def ofRatio (negative : Bool) (num den : Nat) : Float :=
  let magnitude := BinaryFormat.double.roundRatio num den
  Float.ofBits (UInt64.ofNat (if negative then 0x8000000000000000 + magnitude else magnitude))

/-- The place of a number in the total order of all of them, in which the zeros differ and what is
not a number stands beyond the infinities. -/
def place (x : Float) : Int :=
  let bits := Int.ofNat x.toBits.toNat
  if bits < 0x8000000000000000 then bits else 0x7fffffffffffffff - bits

end Binary64

namespace Binary32

/-- The sign bit, which tells the two zeros apart. -/
def signBit (x : Float32) : Bool := x.toBits.toNat / 0x80000000 == 1

/-- The parts of a finite number; `none` for the infinities and for what is not a number. -/
def parts? (x : Float32) : Option BinaryParts :=
  let bits := x.toBits.toNat
  let negative := signBit x
  let field := bits / 0x800000 % 0x100
  let fraction := bits % 0x800000
  if field = 255 then none
  else if field = 0 then some ⟨negative, fraction, -149⟩
  else some ⟨negative, 0x800000 + fraction, Int.ofNat field - 150⟩

/-- The number nearest to `± num / den`. -/
def ofRatio (negative : Bool) (num den : Nat) : Float32 :=
  let magnitude := BinaryFormat.single.roundRatio num den
  Float32.ofBits (UInt32.ofNat (if negative then 0x80000000 + magnitude else magnitude))

/-- The number nearest to an integer. -/
def ofInt (i : Int) : Float32 := ofRatio (decide (i < 0)) i.natAbs 1

/-- The number nearest to a natural number. -/
def ofNat (n : Nat) : Float32 := ofRatio false n 1

def infinity : Float32 := Float32.ofBits 0x7f800000

def negInfinity : Float32 := Float32.ofBits 0xff800000

def nan : Float32 := Float32.ofBits 0x7fc00000

/-- The smaller of two numbers; what is not a number gives way to the other. -/
def min (a b : Float32) : Float32 :=
  if a.isNaN then b else if b.isNaN then a else if b < a then b else a

/-- The larger of two numbers; what is not a number gives way to the other. -/
def max (a b : Float32) : Float32 :=
  if a.isNaN then b else if b.isNaN then a else if a < b then b else a

/-- A number held between two bounds; what is not a number stays as it is. -/
def clamp (x lo hi : Float32) : Float32 :=
  if x < lo then lo else if hi < x then hi else x

/-- The least natural number that is not below `x`; zero for what is negative or not finite. -/
def ceilNat (x : Float32) : Nat :=
  match parts? x with
  | some ⟨false, m, .ofNat n⟩ => m * Nat.pow 2 n
  | some ⟨false, m, .negSucc n⟩ => (m + Nat.pow 2 (n + 1) - 1) / Nat.pow 2 (n + 1)
  | _ => 0

/-- The natural number nearest to `x`, a half going up; zero for what is negative or not finite. -/
def roundNat (x : Float32) : Nat :=
  match parts? x with
  | some p => if p.negative then 0 else roundHalfUp p.ratio.1 p.ratio.2
  | none => 0

/-- The largest integer that is not above `x`, as a number; what is not finite stays as it is. -/
def floor (x : Float32) : Float32 :=
  match parts? x with
  | some ⟨negative, m, .negSucc n⟩ =>
    let d := Nat.pow 2 (n + 1)
    if negative then ofRatio true ((m + d - 1) / d) 1 else ofRatio false (m / d) 1
  | _ => x

/-- The remainder of `x` by a natural number, with the sign of `x`; nothing remains of what is not
finite. -/
def remainder (x : Float32) (n : Nat) : Float32 :=
  match parts? x with
  | some p => ofRatio p.negative (p.ratio.1 % (n * p.ratio.2)) p.ratio.2
  | none => nan

/-! ### Double precision

The trigonometric functions evaluate their polynomials in double precision.  Widening is exact. -/

/-- The double-precision number of the same value. -/
def toDouble (x : Float32) : Float :=
  match parts? x with
  | some p => Binary64.ofRatio p.negative p.ratio.1 p.ratio.2
  | none =>
    if x.isNaN then Float.ofBits 0x7ff8000000000000
    else if x < 0 then Float.ofBits 0xfff0000000000000
    else Float.ofBits 0x7ff0000000000000

/-- The single-precision number nearest to a double-precision one. -/
def ofDouble (x : Float) : Float32 :=
  match Binary64.parts? x with
  | some p => ofRatio p.negative p.ratio.1 p.ratio.2
  | none => if x.isNaN then nan else if x < 0 then negInfinity else infinity

end Binary32

end SvgDisplayList
