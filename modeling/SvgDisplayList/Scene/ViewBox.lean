import SvgDisplayList.Geometry.TransformList

/-!
# View boxes

A view box is the part of the plane that is to fill a viewport.  It is scaled alike in both
directions and centred, unless its proportions are not to be kept.
-/

namespace SvgDisplayList

/-- The part of the plane that fills a viewport. -/
structure ViewBox where
  x : Float32
  y : Float32
  width : Float32
  height : Float32

namespace ViewBox

/-- The view box that a text denotes: four numbers, of which the last two are positive. -/
def ofText? (value : String) : Option ViewBox :=
  match numberList? value.toList with
  | some [x, y, w, h] => if w > 0 && h > 0 then some ⟨x, y, w, h⟩ else none
  | _ => none

/-- The map that takes the view box to a viewport of a size at the origin.  Proportions are kept,
unless their attribute starts with `none`. -/
def fit (v : ViewBox) (width height : Float32) (proportions : Option String) : Matrix :=
  let sx := width / v.width
  let sy := height / v.height
  let stretch := match proportions with
    | some p => (Text.after? "none".toList (Text.trim p.toList)).isSome
    | none => false
  if stretch then ⟨sx, 0, 0, sy, -v.x * sx, -v.y * sy⟩
  else
    let s := Binary32.min sx sy
    ⟨s, 0, 0, s, (width - v.width * s) / 2 - v.x * s, (height - v.height * s) / 2 - v.y * s⟩

end ViewBox

end SvgDisplayList
