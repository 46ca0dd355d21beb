import SvgDisplayList.Css.ColorValue
import SvgDisplayList.Gradient.Basic
import SvgDisplayList.Scene.Attribute
import SvgDisplayList.Style.Declarations

/-!
# Reading gradients

A gradient whose own attributes cannot be read is no gradient at all; its stops are read leniently,
each fault standing for the default.
-/

namespace SvgDisplayList

namespace GradientStop

/-- The stop that an element makes, `floor` being the offset of the stop before it. -/
def ofTag (floor : Float32) (tag : Xml.Tag) : GradientStop :=
  let declared := Declarations.ofTag tag
  let offset := ((tag.attribute? "offset").bind fun v => opacity? v.toList).getD 0
  let color :=
    ((declared.get? "stop-color").bind fun v => AlphaColor.ofChars? (Text.trim v.toList)).getD
      ⟨.black, 1⟩
  let opacity := ((declared.get? "stop-opacity").bind fun v => opacity? v.toList).getD 1
  ⟨Binary32.max offset floor, color.color, opacity * color.alpha⟩

/-- The stops of a list of elements; offsets never decrease. -/
def ramp (floor : Float32) : List Xml.Element → List GradientStop
  | [] => []
  | e :: es =>
    let stop := ofTag floor e.tag
    stop :: ramp stop.offset es

end GradientStop

namespace GradientAttributes

/-- A coordinate of an element, if it gives one. -/
def coordinate? (tag : Xml.Tag) (name : String) : Except ElementError (Option Coordinate) :=
  match tag.attribute? name with
  | none => .ok none
  | some raw =>
    match Coordinate.ofChars? raw.toList with
    | some c => .ok (some c)
    | none => .error (.invalidAttribute name raw)

/-- The transform of an element, if it gives one. -/
def transform? (tag : Xml.Tag) : Except ElementError (Option Matrix) :=
  match tag.attribute? "gradientTransform" with
  | none => .ok none
  | some raw =>
    match Matrix.ofTransformList raw with
    | .ok m => .ok (some m)
    | .error e => .error (.invalidTransform e)

/-- The attributes that an element gives.  The first fault counts, the transform being read
first. -/
def ofTag (tag : Xml.Tag) : Except ElementError GradientAttributes := do
  let transform ← transform? tag
  let x₁ ← coordinate? tag "x1"
  let y₁ ← coordinate? tag "y1"
  let x₂ ← coordinate? tag "x2"
  let y₂ ← coordinate? tag "y2"
  let cx ← coordinate? tag "cx"
  let cy ← coordinate? tag "cy"
  let r ← coordinate? tag "r"
  let fx ← coordinate? tag "fx"
  let fy ← coordinate? tag "fy"
  let units := (tag.attribute? "gradientUnits").map fun v =>
    if Text.trimString v = "userSpaceOnUse" then .userSpaceOnUse else .objectBoundingBox
  let spread := (tag.attribute? "spreadMethod").map fun v =>
    if Text.trimString v = "reflect" then .reflect
    else if Text.trimString v = "repeat" then .repeated
    else .pad
  return { x₁, y₁, x₂, y₂, cx, cy, r, fx, fy, units, spread, transform }

end GradientAttributes

/-- The gradient of a kind that an element makes under a name. -/
def Gradient.ofElement (kind : GradientKind) (id : String) (e : Xml.Element) :
    Except ElementError Gradient := do
  let attributes ← GradientAttributes.ofTag e.tag
  let stops := GradientStop.ramp 0 (e.childElements.filter (·.name == "stop"))
  return { id, kind, stops, reference? := e.tag.reference?, attributes }

end SvgDisplayList
