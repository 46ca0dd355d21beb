import SvgDisplayList.Number.Binary32

/-!
# Trigonometric functions in single precision

Rotations, skews and arcs need sine, cosine, tangent and the angle of a vector, with one answer on
every machine.  The three functions of an angle reduce it to a quarter turn around zero, evaluate a
short polynomial in double precision and round once.  The angle of a vector works in single
precision throughout, around one of four base angles.

The constants are the bit patterns of the polynomial coefficients.
-/

namespace SvgDisplayList

namespace Angle

/-! ### Polynomials on a quarter turn -/

/-- The sine of an angle of at most an eighth of a turn. -/
def sinKernel (x : Float) : Float32 :=
  let s1 := Float.ofBits 0xbfc5555554cbac77
  let s2 := Float.ofBits 0x3f811110896efbb2
  let s3 := Float.ofBits 0xbf2a00f9e2cae774
  let s4 := Float.ofBits 0x3ec6cd878c3b46a7
  let z := x * x
  let w := z * z
  let r := s3 + z * s4
  let s := z * x
  Binary32.ofDouble ((x + s * (s1 + z * s2)) + s * w * r)

/-- The cosine of an angle of at most an eighth of a turn. -/
def cosKernel (x : Float) : Float32 :=
  let c0 := Float.ofBits 0xbfdffffffd0c5e81
  let c1 := Float.ofBits 0x3fa55553e1053a42
  let c2 := Float.ofBits 0xbf56c087e80f1e27
  let c3 := Float.ofBits 0x3ef99342e0ee5069
  let z := x * x
  let w := z * z
  let r := c2 + z * c3
  Binary32.ofDouble (((1 + z * c0) + w * c1) + (w * z) * r)

/-- The tangent of an angle of at most an eighth of a turn, or, for an odd number of quarter turns
besides, the tangent of the sum. -/
def tanKernel (x : Float) (odd : Bool) : Float32 :=
  let t0 := Float.ofBits 0x3fd5554d3418c99f
  let t1 := Float.ofBits 0x3fc112fd38999f72
  let t2 := Float.ofBits 0x3fab54c91d865afe
  let t3 := Float.ofBits 0x3f991df3908c33ce
  let t4 := Float.ofBits 0x3f685dadfcecf44e
  let t5 := Float.ofBits 0x3f8362b9bf971bcd
  let z := x * x
  let r := t4 + z * t5
  let t := t2 + z * t3
  let w := z * z
  let s := z * x
  let u := t0 + z * t1
  let r := (x + s * u) + (s * w) * (t + w * r)
  Binary32.ofDouble (if odd then -1 / r else r)

/-! ### Reduction to a quarter turn -/

/-- An angle as a number of quarter turns, of which only the remainder by four matters, and the rest
of at most an eighth of a turn. -/
structure Reduced where
  quarters : Nat
  rest : Float

/-- The digits of `2 / π` behind the point to the base `2 ^ 24`: as many as the largest finite
number needs, and two to spare. -/
def twoOverPi : List Nat :=
  [0xa2f983, 0x6e4e44, 0x1529fc, 0x2757d1, 0xf534dd, 0xc0db62, 0x95993c, 0x439041, 0xfe5163,
   0xabdebb, 0xc561b7, 0x246e3a]

/-- The quarter turn in four pieces of twenty-four bits. -/
def quarterTurnPieces : List Float :=
  [Float.ofBits 0x3ff921fb40000000, Float.ofBits 0x3e74442d00000000,
   Float.ofBits 0x3cf8469880000000, Float.ofBits 0x3b78cc5160000000]

/-- A large number in quarter turns: the nearest whole number of them, and how far it is away from
that, `rest / 2 ^ bits`, on which side. -/
structure Quartered where
  quarters : Nat
  below : Bool
  rest : Nat
  bits : Nat

/-- The number `m · 2 ^ e` in quarter turns by some digits of `2 / π`.  The digits before them,
which give whole turns, are left out, and the digits behind them are cut off. -/
def quartered (m e digits : Nat) : Quartered :=
  let skipped := (e - 3) / 24
  let factor := ((twoOverPi.drop skipped).take digits).foldl (fun n d => n * 0x1000000 + d) 0
  let bits := 24 * (skipped + digits) - e
  let unit := Nat.pow 2 bits
  let whole := m * factor / unit
  let rest := m * factor % unit
  if unit ≤ 2 * rest then ⟨whole + 1, true, unit - rest, bits⟩ else ⟨whole, false, rest, bits⟩

/-- How many digits of `2 / π` are taken: some to begin with, and for every leading digit that the
rest lacks to four of its own one more. -/
def digitCount (m e : Nat) : (spare : Nat) → (digits : Nat) → Nat
  | 0, digits => digits
  | spare + 1, digits =>
    let rest := (quartered m e digits).rest
    if rest < Nat.pow 2 72 then digitCount m e spare (digits + (3 - rest.log2 / 24)) else digits

/-- The rest as an angle.  Its digits are multiplied by the pieces of the quarter turn, products of
the same weight are added up, and then these sums from the least one on. -/
def Quartered.angle (q : Quartered) : Float :=
  let top := q.rest.log2 / 24
  let digit (i : Nat) : Float :=
    Binary64.ofRatio false (q.rest / Nat.pow 2 (24 * i) % 0x1000000) (Nat.pow 2 (q.bits - 24 * i))
  let sumFrom (i : Nat) : Float :=
    (quarterTurnPieces.take (top + 1 - i)).zipIdx.foldl
      (fun sum (piece, k) => sum + piece * digit (i + k)) 0
  let sum := (List.range (top + 1)).foldl (fun sum i => sum + sumFrom i) 0
  if q.below then -sum else sum

/-- The reduction of a large number `± m · 2 ^ e`, with a mantissa of twenty-four bits. -/
def reduceLarge (negative : Bool) (m e : Nat) : Reduced :=
  let q := quartered m e (digitCount m e (twoOverPi.length - 4) 4)
  if negative then ⟨(4 - q.quarters % 4) % 4, -q.angle⟩ else ⟨q.quarters % 4, q.angle⟩

/-- The least magnitude, as a bit pattern, that is reduced by digits of `2 / π`: about `2 ^ 28`
quarter turns. -/
def largeBits : Nat := 0x4dc90fdb

/-- The reduction of a number of medium size: the nearest number of quarter turns is taken off in
two pieces. -/
def reduceMedium (x : Float) : Reduced :=
  let shift := Float.ofBits 0x4338000000000000
  let perQuarter := Float.ofBits 0x3fe45f306dc9c883
  let head := Float.ofBits 0x3ff921fb50000000
  let tail := Float.ofBits 0x3e5110b4611a6263
  let raised := x * perQuarter + shift
  let n := raised - shift
  -- the low bits of the raised number are the integer in two's complement
  ⟨raised.toBits.toNat % 4, x - n * head - n * tail⟩

/-- The reduction of a finite number. -/
def reduce (x : Float32) : Reduced :=
  if x.abs.toBits.toNat < largeBits then reduceMedium (Binary32.toDouble x)
  else
    match Binary32.parts? x with
    | some p => reduceLarge p.negative p.mantissa p.exponent.toNat
    | none => ⟨0, Float.ofBits 0x7ff8000000000000⟩

/-- `k` quarter turns in double precision, for `k ≤ 4`. -/
def quarterTurns : Nat → Float
  | 0 => 0
  | 1 => Float.ofBits 0x3ff921fb54442d18
  | 2 => Float.ofBits 0x400921fb54442d18
  | 3 => Float.ofBits 0x4012d97c7f3321d2
  | _ => Float.ofBits 0x401921fb54442d18

/-- The number of quarter turns nearest to a magnitude, up to nine eighths of a turn; `none`
beyond. -/
def nearQuarters? (bits : Nat) : Option Nat :=
  if bits ≤ 0x3f490fda then some 0
  else if bits ≤ 0x4016cbe3 then some 1
  else if bits ≤ 0x407b53d1 then some 2
  else if bits ≤ 0x40afeddf then some 3
  else if bits ≤ 0x40e231d5 then some 4
  else none

/-- A magnitude so small, below `2 ^ -12`, that sine and tangent return it. -/
def isTiny (bits : Nat) : Bool := bits < 0x39800000

/-- Sine. -/
def sin (x : Float32) : Float32 :=
  let bits := x.abs.toBits.toNat
  let d := Binary32.toDouble x
  let negative := Binary32.signBit x
  if !x.isFinite then Binary32.nan
  else match nearQuarters? bits with
    | some 0 => if isTiny bits then x else sinKernel d
    | some 1 => if negative then -cosKernel (d + quarterTurns 1) else cosKernel (d - quarterTurns 1)
    | some 2 => sinKernel (if negative then -(d + quarterTurns 2) else -(d - quarterTurns 2))
    | some 3 => if negative then cosKernel (d + quarterTurns 3) else -cosKernel (d - quarterTurns 3)
    | some _ => sinKernel (if negative then d + quarterTurns 4 else d - quarterTurns 4)
    | none =>
      let r := reduce x
      match r.quarters with
      | 0 => sinKernel r.rest
      | 1 => cosKernel r.rest
      | 2 => sinKernel (-r.rest)
      | _ => -cosKernel r.rest

/-- Cosine. -/
def cos (x : Float32) : Float32 :=
  let bits := x.abs.toBits.toNat
  let d := Binary32.toDouble x
  let negative := Binary32.signBit x
  if !x.isFinite then Binary32.nan
  else match nearQuarters? bits with
    | some 0 => if isTiny bits then 1 else cosKernel d
    | some 1 => if negative then sinKernel (d + quarterTurns 1) else sinKernel (quarterTurns 1 - d)
    | some 2 => -cosKernel (if negative then d + quarterTurns 2 else d - quarterTurns 2)
    | some 3 => if negative then sinKernel (-d - quarterTurns 3) else sinKernel (d - quarterTurns 3)
    | some _ => cosKernel (if negative then d + quarterTurns 4 else d - quarterTurns 4)
    | none =>
      let r := reduce x
      match r.quarters with
      | 0 => cosKernel r.rest
      | 1 => sinKernel (-r.rest)
      | 2 => -cosKernel r.rest
      | _ => sinKernel r.rest

/-- Tangent. -/
def tan (x : Float32) : Float32 :=
  let bits := x.abs.toBits.toNat
  let d := Binary32.toDouble x
  let negative := Binary32.signBit x
  if !x.isFinite then Binary32.nan
  else match nearQuarters? bits with
    | some 0 => if isTiny bits then x else tanKernel d false
    | some k => tanKernel (if negative then d + quarterTurns k else d - quarterTurns k) (k % 2 = 1)
    | none => let r := reduce x; tanKernel r.rest (r.quarters % 2 = 1)

/-! ### The angle of a vector -/

/-- A base angle with its rounding error, around which the arc tangent is expanded. -/
structure BaseAngle where
  high : Float32
  low : Float32

/-- The odd polynomial of the arc tangent, as the fraction of `x` that it takes away. -/
def atanSeries (x : Float32) : Float32 :=
  let a0 := Float32.ofBits 0x3eaaaaa9
  let a1 := Float32.ofBits 0xbe4cca98
  let a2 := Float32.ofBits 0x3e11f50d
  let a3 := Float32.ofBits 0xbdda1247
  let a4 := Float32.ofBits 0x3d7cac25
  let z := x * x
  let w := z * z
  z * (a0 + w * (a2 + w * a4)) + w * (a1 + w * a3)

/-- The base angle near a magnitude, and the tangent of the difference to it. -/
def atanBase (bits : Nat) (x : Float32) : BaseAngle × Float32 :=
  if bits < 0x3f300000 then
    (⟨Float32.ofBits 0x3eed6338, Float32.ofBits 0x31ac3769⟩, (2 * x - 1) / (2 + x))
  else if bits < 0x3f980000 then
    (⟨Float32.ofBits 0x3f490fda, Float32.ofBits 0x33222168⟩, (x - 1) / (x + 1))
  else if bits < 0x401c0000 then
    (⟨Float32.ofBits 0x3f7b985e, Float32.ofBits 0x33140fb4⟩, (x - 1.5) / (1 + 1.5 * x))
  else
    (⟨Float32.ofBits 0x3fc90fda, Float32.ofBits 0x33a22168⟩, -1 / x)

/-- Arc tangent. -/
def atan (x : Float32) : Float32 :=
  let bits := x.abs.toBits.toNat
  let negative := Binary32.signBit x
  if x.isNaN then x
  else if 0x4c800000 ≤ bits then
    let z := Float32.ofBits 0x3fc90fda + Float32.ofBits 0x03800000
    if negative then -z else z
  else if bits < 0x39800000 then x
  else if bits < 0x3ee00000 then x - x * atanSeries x
  else
    let (base, t) := atanBase bits x.abs
    let z := base.high - ((t * atanSeries t - base.low) - t)
    if negative then -z else z

/-- Half a turn. -/
def halfTurn : Float32 := Float32.ofBits 0x40490fdb

/-- What `halfTurn` lacks. -/
def halfTurnTail : Float32 := Float32.ofBits 0xb3bbbd2e

/-- The angle of the vector `(x, y)`, between minus and plus half a turn. -/
def atan2 (y x : Float32) : Float32 :=
  let magX := x.abs.toBits.toNat
  let magY := y.abs.toBits.toNat
  let xNegative := Binary32.signBit x
  let yNegative := Binary32.signBit y
  let infinite := 0x7f800000
  if x.isNaN || y.isNaN then Binary32.nan
  else if x.toBits.toNat = 0x3f800000 then atan y
  else if magY = 0 then
    if xNegative then (if yNegative then -halfTurn else halfTurn) else y
  else if magX = 0 then
    if yNegative then -halfTurn / 2 else halfTurn / 2
  else if magX = infinite then
    if magY = infinite then
      let z := if xNegative then 3 * halfTurn / 4 else halfTurn / 4
      if yNegative then -z else z
    else
      let z : Float32 := if xNegative then halfTurn else 0
      if yNegative then -z else z
  else if magX + 26 * 0x800000 < magY || magY = infinite then
    if yNegative then -halfTurn / 2 else halfTurn / 2
  else
    let z : Float32 :=
      if xNegative && magY + 26 * 0x800000 < magX then 0 else atan (y / x).abs
    match xNegative, yNegative with
    | false, false => z
    | false, true => -z
    | true, false => halfTurn - (z - halfTurnTail)
    | true, true => (z - halfTurnTail) - halfTurn

/-- Degrees to radians. -/
def ofDegrees (degrees : Float32) : Float32 := degrees * Float32.ofBits 0x3c8efa35

end Angle

end SvgDisplayList
