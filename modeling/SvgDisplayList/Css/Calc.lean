import SvgDisplayList.Css.Component
import SvgDisplayList.Number.Elementary

/-!
# Arithmetic in values

Where a number, a percentage or an angle is expected, an expression may stand instead: sums and
products of values, and mathematical functions of them.  An expression has a *dimension*, that of
the quantities in it; its value is either a plain number or a quantity of that dimension.  The two
cannot be added to each other, and one factor of a product has to be a number.

Quantities keep their units.  Two of one unit are combined in that unit; two of different units are
first brought to a unit they share, if there is one.

A name, such as that of a channel of a colour, may stand for a value in the outermost function only.
-/

namespace SvgDisplayList

namespace Css

/-! ### Quantities -/

/-- What an expression measures. -/
inductive Dimension where
  | number
  | share
  | angle
  | length
  | time
deriving DecidableEq, Repr

/-- The unit of a quantity. -/
inductive MeasureUnit where
  | percent
  | degree
  | gradian
  | radian
  | turn
  | second
  | millisecond
  | length (name : String)
deriving DecidableEq, Repr

/-- The value of an expression. -/
inductive Quantity where
  | plain (value : Float32)
  | measured (value : Float32) (unit : MeasureUnit)

/-- Half a turn in radians. -/
def piValue : Float32 := Float32.ofBits 0x40490fdb

/-- A quantity of an angle in degrees. -/
def inDegrees (value : Float32) : MeasureUnit → Float32
  | .gradian => value * 180 / 200
  | .radian => value * (180 / piValue)
  | .turn => value * 360
  | _ => value

/-- A quantity of an angle in radians. -/
def inRadians (value : Float32) : MeasureUnit → Float32
  | .gradian => value * 180 / 200 * (piValue / 180)
  | .radian => value
  | .turn => value * 360 * (piValue / 180)
  | _ => value * (piValue / 180)

/-- The pixels of a unit of length that does not depend on its surroundings. -/
def pixelsPer? : String → Option Float32
  | "px" => some 1
  | "in" => some 96
  | "cm" => some (96 / 2.54)
  | "mm" => some (96 / 2.54 / 10)
  | "q" => some (96 / 2.54 / 40)
  | "pt" => some (96 / 72)
  | "pc" => some (96 / 6)
  | _ => none

/-- The units of length. -/
def lengthUnits : List String :=
  ["px", "in", "cm", "mm", "q", "pt", "pc", "em", "rem", "ex", "rex", "ch", "rch", "cap", "rcap",
   "ic", "ric", "lh", "rlh", "vw", "lvw", "svw", "dvw", "cqw", "vh", "lvh", "svh", "dvh", "cqh",
   "vi", "svi", "lvi", "dvi", "cqi", "vb", "svb", "lvb", "dvb", "cqb", "vmin", "svmin", "lvmin",
   "dvmin", "cqmin", "vmax", "svmax", "lvmax", "dvmax", "cqmax"]

namespace MeasureUnit

/-- The unit of a dimension by its name in lower case. -/
def ofName? (dimension : Dimension) (name : String) : Option MeasureUnit :=
  match dimension with
  | .angle =>
    match name with
    | "deg" => some degree
    | "grad" => some gradian
    | "rad" => some radian
    | "turn" => some turn
    | _ => none
  | .time =>
    match name with
    | "s" => some second
    | "ms" => some millisecond
    | _ => none
  | .length => if lengthUnits.contains name then some (length name) else none
  | _ => none

/-- A quantity in the unit that its dimension has in common, with that unit. -/
def toCommon? (value : Float32) : MeasureUnit → Option (Float32 × MeasureUnit)
  | percent => none
  | millisecond => some (value, millisecond)
  | second => some (value * 1000, millisecond)
  | length name =>
    (pixelsPer? name).map fun k => (if name = "px" then value else value * k, length "px")
  | unit => some (inDegrees value unit, degree)

end MeasureUnit

namespace Quantity

/-- The quantity that a token gives in a dimension. -/
def ofToken? (dimension : Dimension) : Token → Option Quantity
  | .percentage v => if dimension = .share then some (measured v .percent) else none
  | .dimension v name =>
    (MeasureUnit.ofName? dimension (Reader.lowered name)).map fun u => measured v u
  | _ => none

def scale (k : Float32) : Quantity → Quantity
  | plain v => plain (v * k)
  | measured v u => measured (v * k) u

/-- A quantity with a function applied to its value.  The result for a percentage would depend on
what it is a percentage of, so there is none. -/
def map? (f : Float32 → Float32) : Quantity → Option Quantity
  | plain v => some (plain (f v))
  | measured _ .percent => none
  | measured v u => some (measured (f v) u)

/-- The values of two quantities in a unit that they share; `some none` stands for plain numbers. -/
def aligned? : Quantity → Quantity → Option (Float32 × Float32 × Option MeasureUnit)
  | plain v, plain w => some (v, w, none)
  | measured v u, measured w t =>
    if u = t then some (v, w, some u)
    else
      match MeasureUnit.toCommon? v u, MeasureUnit.toCommon? w t with
      | some (v, u), some (w, t) => if u = t then some (v, w, some u) else none
      | _, _ => none
  | _, _ => none

/-- The quantity of a value in a unit, or a plain number. -/
def ofValue (v : Float32) : Option MeasureUnit → Quantity
  | none => plain v
  | some u => measured v u

/-- A function of the values of two quantities. -/
def combine? (f : Float32 → Float32 → Float32) (p q : Quantity) : Option Quantity :=
  (aligned? p q).map fun (v, w, u) => ofValue (f v w) u

/-- Whether one quantity is less than another; nothing if the two cannot be compared. -/
def lessThan? (p q : Quantity) : Option Bool :=
  match aligned? p q with
  | some (v, w, _) => if v.isNaN || w.isNaN then none else some (v < w)
  | none => none

/-- The smaller of two quantities; the first of two equal ones. -/
def lesser? (p q : Quantity) : Option Quantity := (lessThan? q p).map fun b => if b then q else p

/-- The larger of two quantities; the first of two equal ones. -/
def greater? (p q : Quantity) : Option Quantity := (lessThan? p q).map fun b => if b then q else p

end Quantity

/-- Numbers that have names. -/
def constant? : String → Option Float32
  | "e" => some (Float32.ofBits 0x402df854)
  | "pi" => some piValue
  | "infinity" => some Binary32.infinity
  | "-infinity" => some Binary32.negInfinity
  | "nan" => some Binary32.nan
  | _ => none

namespace Calc

/-- Names that stand for values. -/
abbrev Names := String → Option Quantity

namespace Names

/-- No names at all. -/
def empty : Names := fun _ => none

/-- The names of plain numbers. -/
def numbers (names : Names) : Names := fun n =>
  match names n with
  | some (.plain v) => some (.plain v)
  | _ => none

end Names

/-! ### Sums and products -/

/-- The product of two quantities, one of which is a number. -/
def times? : Quantity → Quantity → Option Quantity
  | p, .plain k => some (p.scale k)
  | .plain k, q => some (q.scale k)
  | _, _ => none

/-- The quotient of a quantity and a number other than zero. -/
def quotient? : Quantity → Quantity → Option Quantity
  | p, .plain k => if k == 0 then none else some (p.scale (1 / k))
  | _, _ => none

/-- Reads the factors of a product behind the first, `value` reading a single one. -/
def product (value : Reader Quantity) : (turns : Nat) → Quantity → Reader Quantity
  | 0, node, cs => some (node, cs)
  | turns + 1, node, cs =>
    match Reader.next cs with
    | some (.token (.delim '*'), r) =>
      (value r).bind fun (rhs, r) => (times? node rhs).bind fun node => product value turns node r
    | some (.token (.delim '/'), r) =>
      (value r).bind fun (rhs, r) => (quotient? node rhs).bind fun node =>
        product value turns node r
    | _ => some (node, cs)

/-- Reads the terms of a sum behind the first.  The sign between two terms has white space on both
sides. -/
def sum (term : Reader Quantity) : (turns : Nat) → Quantity → Reader Quantity
  | 0, node, cs => some (node, cs)
  | turns + 1, node, cs =>
    match cs with
    | .token .space :: r =>
      match Reader.next r with
      | none => some (node, [])
      | some (.token (.delim '+'), r) =>
        (term r).bind fun (rhs, r) =>
          (Quantity.combine? (· + ·) node rhs).bind fun node => sum term turns node r
      | some (.token (.delim '-'), r) =>
        (term r).bind fun (rhs, r) =>
          (Quantity.combine? (· + ·) node (rhs.scale (-1))).bind fun node => sum term turns node r
      | some _ => none
    | _ => some (node, cs)

/-- Reads a sum of products of values. -/
def expression (value : Reader Quantity) : Reader Quantity := fun cs =>
  let turns := cs.length
  let term : Reader Quantity := fun cs => (value cs).bind fun (q, r) => product value turns q r
  (term cs).bind fun (q, r) => sum term turns q r

/-! ### Functions -/

/-- The terms between commas. -/
def splitCommas : List Component → List (List Component)
  | [] => [[]]
  | .token .comma :: r => [] :: splitCommas r
  | c :: r =>
    match splitCommas r with
    | [] => [[c]]
    | t :: ts => (c :: t) :: ts

/-- Reads any number of expressions between commas. -/
def several (term : Reader Quantity) : Reader (List Quantity) := fun cs =>
  ((splitCommas cs).mapM (Reader.all term)).map fun qs => (qs, [])

/-- Reads two expressions with a comma directly behind the first. -/
def pair (term : Reader Quantity) : Reader (Quantity × Quantity) := fun cs => do
  let (p, r) ← term cs
  let (_, r) ← Reader.comma r
  let (q, r) ← term r
  return ((p, q), r)

/-- Reads an expression whose value is a plain number. -/
def plainNumber (term : Reader Quantity) : Reader Float32 := fun cs =>
  match term cs with
  | some (.plain v, r) => some (v, r)
  | _ => none

/-- A result, if there is one, with the components behind it. -/
def yielding (q? : Option Quantity) (r : List Component) : Option (Quantity × List Component) :=
  q?.map fun q => (q, r)

/-- The ways of rounding to a multiple. -/
def roundingRule? : String → Option (Float32 → Float32)
  | "nearest" => some Binary32.nearestInteger
  | "up" => some Binary32.ceiling
  | "down" => some Binary32.floor
  | "to-zero" => some Binary32.truncated
  | _ => none

/-- Reads the arguments of `round`: perhaps a way of rounding, a value, and what to round it to a
multiple of. -/
def rounding (term : Reader Quantity) : Reader Quantity := fun cs => do
  let named? := (Reader.ident cs).bind fun (n, r) => (roundingRule? n).map fun rule => (rule, r)
  let (rule, r) ← match named? with
    | some (rule, r) => (Reader.comma r).map fun (_, r) => (rule, r)
    | none => some (Binary32.nearestInteger, cs)
  let ((p, q), r) ← pair term r
  yielding (Quantity.combine? (fun v step => rule (v / step) * step) p q) r

/-- Reads the arguments of `clamp`; the least value counts for more than the greatest. -/
def clamping (term : Reader Quantity) : Reader Quantity := fun cs => do
  let (lo, r) ← term cs
  let (_, r) ← Reader.comma r
  let (q, r) ← term r
  let (_, r) ← Reader.comma r
  let (hi, r) ← term r
  yielding ((Quantity.lesser? q hi).bind fun q => Quantity.greater? q lo) r

/-- The root of the sum of the squares of some quantities. -/
def euclidean? : List Quantity → Option Quantity
  | [] => none
  | [q] => some q
  | [p, q] => Quantity.combine? Binary32.hypotenuse p q
  | q :: qs => do
    let q ← q.map? fun v => v * v
    let total ← qs.foldlM (Quantity.combine? fun v w => v + w * w) q
    total.map? Float32.sqrt

/-- The sign of a quantity; that of a percentage depends on what it is a percentage of. -/
def signOf? : Quantity → Option Quantity
  | .plain v => some (.plain (Binary32.sign v))
  | .measured _ .percent => none
  | .measured v _ => some (.plain (Binary32.sign v))

/-- Reads the argument of a function of an angle, a number being one in radians. -/
def ofAngle (f : Float32 → Float32) (term : Reader Quantity) : Reader Quantity := fun cs =>
  match term cs with
  | some (.plain v, r) => some (.plain (f v), r)
  | some (.measured v u, r) => some (.plain (f (inRadians v u)), r)
  | none => none

/-- An angle in radians, where an angle is expected. -/
def angle? (dimension : Dimension) (v : Float32) : Option Quantity :=
  if dimension = .angle then some (.measured v .radian) else none

/-- Reads the argument of a function that gives an angle.  What is not a number has no unit. -/
def toAngle (f : Float32 → Float32) (dimension : Dimension) (term : Reader Quantity) :
    Reader Quantity := fun cs =>
  (plainNumber term cs).bind fun (v, r) =>
    yielding (if (f v).isNaN then some (.plain (f v)) else angle? dimension (f v)) r

/-- Reads two expressions of one dimension as the sides of a vector, and gives its angle in
radians. -/
def vectorAngle (term : Reader Quantity) : Reader Float32 := fun cs => do
  let ((p, q), r) ← pair term cs
  let (y, x, _) ← Quantity.aligned? p q
  return (Binary32.polarAngle y x, r)

/-- Reads the arguments of a function by its name in lower case.  `term` reads an expression of a
dimension; the names are known where the expression has the dimension of the function's value, or is
a number. -/
def function? (term : Dimension → Names → Reader Quantity) (dimension : Dimension) (names : Names)
    (name : String) :
    Option (Reader Quantity) :=
  let own := term dimension names
  let number := plainNumber (term .number names.numbers)
  let angle := term .angle names
  let combined (f : Float32 → Float32 → Float32) : Reader Quantity := fun cs =>
    (pair own cs).bind fun ((p, q), r) => yielding (Quantity.combine? f p q) r
  let numeric (f : Float32 → Float32) : Reader Quantity := fun cs =>
    (number cs).map fun (v, r) => (.plain (f v), r)
  match name with
  | "calc" => some own
  | "min" => some fun cs => (several own cs).bind fun (qs, r) =>
    match qs with
    | q :: qs => yielding (qs.foldlM Quantity.lesser? q) r
    | [] => none
  | "max" => some fun cs => (several own cs).bind fun (qs, r) =>
    match qs with
    | q :: qs => yielding (qs.foldlM Quantity.greater? q) r
    | [] => none
  | "clamp" => some (clamping own)
  | "round" => some (rounding own)
  | "rem" => some (combined Binary32.modulo)
  | "mod" => some (combined fun v w => Binary32.modulo (Binary32.modulo v w + w) w)
  | "abs" => some fun cs => (own cs).bind fun (q, r) => yielding (q.map? Float32.abs) r
  | "sign" => some fun cs => (own cs).bind fun (q, r) => yielding (signOf? q) r
  | "hypot" => some fun cs => (several own cs).bind fun (qs, r) => yielding (euclidean? qs) r
  | "sqrt" => some (numeric Float32.sqrt)
  | "exp" => some (numeric Float32.exp)
  | "pow" => some fun cs => do
    let (v, r) ← number cs
    let (_, r) ← Reader.comma r
    let (w, r) ← number r
    return (.plain (v.pow w), r)
  | "log" => some fun cs => do
    let (v, r) ← number cs
    match Reader.comma r with
    | some (_, r) => (number r).map fun (base, r) => (.plain (Binary32.logarithm v base), r)
    | none => return (.plain v.log, r)
  | "sin" => some (ofAngle Float32.sin angle)
  | "cos" => some (ofAngle Float32.cos angle)
  | "tan" => some (ofAngle Binary32.tangent angle)
  | "asin" => some (toAngle Binary32.arcSine dimension angle)
  | "acos" => some (toAngle Binary32.arcCosine dimension angle)
  | "atan" => some (toAngle Binary32.arcTangent dimension angle)
  | "atan2" => some fun cs =>
    let attempts : List (Reader Float32) :=
      ([.length, .share, .angle, .time].map fun d => vectorAngle (term d .empty)) ++
        [vectorAngle (term .number names.numbers)]
    (attempts.findSome? (Reader.all · cs)).bind fun v => yielding (angle? dimension v) []
  | _ => none

/-- Reads a single value; `depth` bounds how deeply it nests. -/
def value : (depth : Nat) → Dimension → Names → Reader Quantity
  | 0, _, _ => fun _ => none
  | depth + 1, dimension, names => fun cs =>
    match Reader.next cs with
    | some (.call name arguments, r) => do
      let term (d : Dimension) (names : Names) : Reader Quantity := expression (value depth d names)
      let reader ← function? term dimension .empty (Reader.lowered name)
      let q ← Reader.all reader arguments
      return (q, r)
    | some (.block .round content, r) =>
      yielding (Reader.all (expression (value depth dimension names)) content) r
    | some (.token (.number x), r) => some (.plain x, r)
    | some (.token (.ident n), r) =>
      yielding (((constant? (Reader.lowered n)).map Quantity.plain).or (names (Reader.lowered n))) r
    | some (.token t, r) => yielding (Quantity.ofToken? dimension t) r
    | _ => none

/-- Reads a function whose value is an expression. -/
def call (dimension : Dimension) (names : Names) : Reader Quantity := fun cs =>
  match Reader.next cs with
  | some (.call name arguments, r) => do
    let depth := Component.depths arguments + 1
    let term (d : Dimension) (names : Names) : Reader Quantity := expression (value depth d names)
    let reader ← function? term dimension names (Reader.lowered name)
    let q ← Reader.all reader arguments
    return (q, r)
  | _ => none

end Calc

end Css

end SvgDisplayList
