import SvgDisplayList.Geometry.Outline
import SvgDisplayList.PathData.Reader
import SvgDisplayList.Scene.Attribute
import SvgDisplayList.Scene.ElementKind

/-!
# The outlines of shapes

Every shape is drawn as a path.  Curves are cubics: a quarter of an ellipse is one cubic whose
control points stand off its ends by a fixed share of the radii.  A shape without extent has no
outline at all, which is no error; a negative extent is one.
-/

namespace SvgDisplayList

namespace Shape

/-- How far the control points of a quarter circle of radius one stand off its ends. -/
def quarterHandle : Float32 := 0.5522848

/-- The outline of a rectangle with corners rounded by two radii. -/
def roundedRectangle (x y w h rx ry : Float32) : Outline :=
  let kx := rx * quarterHandle
  let ky := ry * quarterHandle
  let right := x + w
  let bottom := y + h
  Outline.empty
    |>.moveTo ⟨x + rx, y⟩
    |>.lineTo ⟨right - rx, y⟩
    |>.cubicTo ⟨right - rx + kx, y⟩ ⟨right, y + ry - ky⟩ ⟨right, y + ry⟩
    |>.lineTo ⟨right, bottom - ry⟩
    |>.cubicTo ⟨right, bottom - ry + ky⟩ ⟨right - rx + kx, bottom⟩ ⟨right - rx, bottom⟩
    |>.lineTo ⟨x + rx, bottom⟩
    |>.cubicTo ⟨x + rx - kx, bottom⟩ ⟨x, bottom - ry + ky⟩ ⟨x, bottom - ry⟩
    |>.lineTo ⟨x, y + ry⟩
    |>.cubicTo ⟨x, y + ry - ky⟩ ⟨x + rx - kx, y⟩ ⟨x + rx, y⟩
    |>.close

/-- The outline of a rectangle with square corners. -/
def squareRectangle (x y w h : Float32) : Outline :=
  Outline.empty
    |>.moveTo ⟨x, y⟩
    |>.lineTo ⟨x + w, y⟩
    |>.lineTo ⟨x + w, y + h⟩
    |>.lineTo ⟨x, y + h⟩
    |>.close

/-- The outline of a rectangle. -/
def rectangle (x y w h rx ry : Float32) : Outline :=
  if w ≤ 0 || h ≤ 0 then .empty
  else if rx ≤ 0 || ry ≤ 0 then squareRectangle x y w h
  else roundedRectangle x y w h rx ry

/-- The outline of an ellipse around a center. -/
def oval (cx cy rx ry : Float32) : Outline :=
  if rx ≤ 0 || ry ≤ 0 then .empty
  else
    let ox := rx * quarterHandle
    let oy := ry * quarterHandle
    Outline.empty
      |>.moveTo ⟨cx + rx, cy⟩
      |>.cubicTo ⟨cx + rx, cy + oy⟩ ⟨cx + ox, cy + ry⟩ ⟨cx, cy + ry⟩
      |>.cubicTo ⟨cx - ox, cy + ry⟩ ⟨cx - rx, cy + oy⟩ ⟨cx - rx, cy⟩
      |>.cubicTo ⟨cx - rx, cy - oy⟩ ⟨cx - ox, cy - ry⟩ ⟨cx, cy - ry⟩
      |>.cubicTo ⟨cx + ox, cy - ry⟩ ⟨cx + rx, cy - oy⟩ ⟨cx + rx, cy⟩
      |>.close

/-- The radii of rounded corners.  One that is missing is the other one, and none exceeds half of
its side. -/
def cornerRadii (w h : Float32) (rx ry : Option Float32) : Float32 × Float32 :=
  let rx := rx.filter fun r => r ≥ 0
  let ry := ry.filter fun r => r ≥ 0
  let rx' := (rx.or ry).getD 0
  let ry' := (ry.or rx).getD 0
  (Binary32.min rx' (w / 2), Binary32.min ry' (h / 2))

/-- Lines through a list of points. -/
def through : List Point → Outline
  | [] => .empty
  | p :: ps => ps.foldl Outline.lineTo (Outline.empty.moveTo p)

/-- The points of a list of coordinates; a last odd one is dropped. -/
def pairs : List Float32 → List Point
  | x :: y :: rest => ⟨x, y⟩ :: pairs rest
  | _ => []

/-- The points that an element gives. -/
def points (tag : Xml.Tag) : Except ElementError (List Point) :=
  match tag.attribute? "points" with
  | none => .error (.missingAttribute "points")
  | some raw =>
    match numberList? raw.toList with
    | some numbers => .ok (pairs numbers)
    | none => .error (.invalidAttribute "points" raw)

/-- The outline of a path element. -/
def pathSubpaths (tag : Xml.Tag) : Except ElementError (List Subpath) :=
  match tag.attribute? "d" with
  | none => .error (.missingAttribute "d")
  | some d => (Subpath.ofPathData d).mapError .invalidPath

/-- The outline of the other elements. -/
def outline (shape : Shape) (tag : Xml.Tag) (sizes : ReferenceSizes) :
    Except ElementError Outline :=
  match shape with
  | .path => .ok .empty
  | .rect => do
    let x ← tag.length "x" .horizontal sizes
    let y ← tag.length "y" .vertical sizes
    let w ← tag.extent "width" .horizontal sizes
    let h ← tag.extent "height" .vertical sizes
    let rx ← tag.length? "rx" .horizontal sizes
    let ry ← tag.length? "ry" .vertical sizes
    let (rx, ry) := cornerRadii w h rx ry
    return rectangle x y w h rx ry
  | .circle => do
    let cx ← tag.length "cx" .horizontal sizes
    let cy ← tag.length "cy" .vertical sizes
    let r ← tag.extent "r" .diagonal sizes
    return oval cx cy r r
  | .ellipse => do
    let cx ← tag.length "cx" .horizontal sizes
    let cy ← tag.length "cy" .vertical sizes
    let rx ← tag.extent "rx" .horizontal sizes
    let ry ← tag.extent "ry" .vertical sizes
    return oval cx cy rx ry
  | .line => do
    let x₁ ← tag.length "x1" .horizontal sizes
    let y₁ ← tag.length "y1" .vertical sizes
    let x₂ ← tag.length "x2" .horizontal sizes
    let y₂ ← tag.length "y2" .vertical sizes
    return (Outline.empty.moveTo ⟨x₁, y₁⟩).lineTo ⟨x₂, y₂⟩
  | .polyline => (points tag).map through
  | .polygon => (points tag).map fun ps => (through ps).close

/-- The subpaths of the shape that an element describes. -/
def subpaths (shape : Shape) (tag : Xml.Tag) (sizes : ReferenceSizes) :
    Except ElementError (List Subpath) :=
  match shape with
  | .path => pathSubpaths tag
  | shape => (shape.outline tag sizes).map Outline.subpaths

end Shape

end SvgDisplayList
