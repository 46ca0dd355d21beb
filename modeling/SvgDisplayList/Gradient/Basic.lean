import SvgDisplayList.Geometry.Matrix
import SvgDisplayList.Style.Color
import SvgDisplayList.Style.Length

/-!
# Gradients as written

A gradient leaves most of its attributes to a default, or to the gradient that it refers to.  Here
it is kept as it stands in the document: every attribute it may inherit is optional.
-/

namespace SvgDisplayList

/-- The two ways in which colours run. -/
inductive GradientKind where
  | linear
  | radial
deriving DecidableEq, Repr

namespace GradientKind

/-- The name of the elements of a kind. -/
def elementName : GradientKind → String
  | linear => "linearGradient"
  | radial => "radialGradient"

/-- The kind of the elements of a name. -/
def ofElementName? (name : String) : Option GradientKind :=
  if name = "linearGradient" then some linear
  else if name = "radialGradient" then some radial
  else none

end GradientKind

/-- What the coordinates of a gradient refer to. -/
inductive GradientUnits where
  | objectBoundingBox
  | userSpaceOnUse
deriving DecidableEq, Repr

/-- What lies beyond the ends of a gradient. -/
inductive SpreadMethod where
  | pad
  | reflect
  | repeated
deriving DecidableEq, Repr

namespace SpreadMethod

def name : SpreadMethod → String
  | pad => "pad"
  | reflect => "reflect"
  | repeated => "repeat"

end SpreadMethod

/-- A colour at a place along a gradient. -/
structure GradientStop where
  offset : Float32
  color : Color
  opacity : Float32

/-- A coordinate of a gradient: a plain number or a share of the whole. -/
inductive Coordinate where
  | plain (value : Float32)
  | share (value : Float32)

namespace Coordinate

/-- The coordinate that a text denotes.  Units other than the percentage are those of the initial
sizes. -/
def ofChars? (cs : List Char) : Option Coordinate :=
  let cs := Text.trim cs
  match Text.before? ['%'] cs with
  | some p => (finiteNumber? (Text.trim p)).map fun v => share (v / 100)
  | none => (ReferenceSizes.initial.resolve .horizontal cs).map plain

/-- The number that a coordinate stands for.  In the unit square of a box, shares and plain numbers
are the same. -/
def resolve (c : Coordinate) (units : GradientUnits) (sizes : ReferenceSizes) (axis : Axis) :
    Float32 :=
  match units, c with
  | .userSpaceOnUse, share v => sizes.percentBase axis * v
  | _, share v => v
  | _, plain v => v

end Coordinate

/-- The attributes that a gradient can inherit. -/
structure GradientAttributes where
  x₁ : Option Coordinate
  y₁ : Option Coordinate
  x₂ : Option Coordinate
  y₂ : Option Coordinate
  cx : Option Coordinate
  cy : Option Coordinate
  r : Option Coordinate
  fx : Option Coordinate
  fy : Option Coordinate
  units : Option GradientUnits
  spread : Option SpreadMethod
  transform : Option Matrix

/-- A gradient as written in the document. -/
structure Gradient where
  id : String
  kind : GradientKind
  stops : List GradientStop
  reference? : Option String
  attributes : GradientAttributes

end SvgDisplayList
