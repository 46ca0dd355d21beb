import SvgDisplayList.Number.Shortest
import SvgDisplayList.Scene.Diagnostic
import SvgDisplayList.Style.Length
import SvgDisplayList.Xml.Document

/-!
# Attributes with a meaning

Lengths and references as elements give them.
-/

namespace SvgDisplayList

/-- The namespace of links. -/
def linkSpace : String := "http://www.w3.org/1999/xlink"

namespace Xml.Tag

/-- What the element refers to: its `href`, or else that of the namespace of links. -/
def href? (t : Tag) : Option String :=
  (t.attribute? "href").or (t.attributeIn? (some linkSpace) "href")

/-- The identifier in the same document that the element refers to. -/
def reference? (t : Tag) : Option String :=
  match t.href?.map fun h => Text.trim h.toList with
  | some ('#' :: c :: id) => some (String.ofList (c :: id))
  | _ => none

/-- The length that an attribute gives, if it is there. -/
def length? (t : Tag) (name : String) (axis : Axis) (sizes : ReferenceSizes) :
    Except ElementError (Option Float32) :=
  match t.attribute? name with
  | none => .ok none
  | some raw =>
    match sizes.resolve axis raw.toList with
    | some v => .ok (some v)
    | none => .error (.invalidAttribute name raw)

/-- The length that an attribute gives; zero if it is not there. -/
def length (t : Tag) (name : String) (axis : Axis) (sizes : ReferenceSizes) :
    Except ElementError Float32 :=
  (t.length? name axis sizes).map (·.getD 0)

/-- The length that an attribute gives, which must not be negative; zero if it is not there. -/
def extent (t : Tag) (name : String) (axis : Axis) (sizes : ReferenceSizes) :
    Except ElementError Float32 :=
  match t.length name axis sizes with
  | .error e => .error e
  | .ok v => if v < 0 then .error (.invalidAttribute name (Binary32.text v)) else .ok v

end Xml.Tag

end SvgDisplayList
