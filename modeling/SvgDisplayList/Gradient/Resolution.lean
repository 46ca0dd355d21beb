import SvgDisplayList.Gradient.Basic

/-!
# Resolved gradients

A gradient meets the element that it paints: its coordinates become numbers, and in the coordinates
of a box, the transform takes the unit square to the box of the element.
-/

namespace SvgDisplayList

/-- Where the colours of a gradient run. -/
inductive GradientGeometry where
  | linear (start finish : Point)
  | radial (center : Point) (radius : Float32) (focal : Point)

/-- A gradient without anything left open.  The transform leads from its own coordinates to those of
the element. -/
structure ResolvedGradient where
  id : String
  geometry : GradientGeometry
  spread : SpreadMethod
  transform : Option Matrix
  stops : List GradientStop

namespace ResolvedGradient

/-- The kind of a gradient shows in its geometry. -/
def kind (g : ResolvedGradient) : GradientKind :=
  match g.geometry with
  | .linear .. => .linear
  | .radial .. => .radial

end ResolvedGradient

namespace Gradient

/-- The units of the coordinates. -/
def units (g : Gradient) : GradientUnits := g.attributes.units.getD .objectBoundingBox

/-- Where the colours run.  A linear gradient runs from left to right unless it says otherwise, a
radial one around the middle; the focal point is the center unless it says otherwise. -/
def geometry (g : Gradient) (sizes : ReferenceSizes) : GradientGeometry :=
  let a := g.attributes
  let at_ (c : Coordinate) (axis : Axis) : Float32 := c.resolve g.units sizes axis
  let number (c : Option Coordinate) (share : Float32) (axis : Axis) : Float32 :=
    at_ (c.getD (.share share)) axis
  match g.kind with
  | .linear =>
    .linear ⟨number a.x₁ 0 .horizontal, number a.y₁ 0 .vertical⟩
      ⟨number a.x₂ 1 .horizontal, number a.y₂ 0 .vertical⟩
  | .radial =>
    let center : Point := ⟨number a.cx 0.5 .horizontal, number a.cy 0.5 .vertical⟩
    let focal : Point :=
      ⟨(a.fx.map fun c => at_ c .horizontal).getD center.x,
        (a.fy.map fun c => at_ c .vertical).getD center.y⟩
    .radial center (Binary32.max (number a.r 0.5 .diagonal) 0) focal

/-- The gradient as it paints an element with a box.  There is none without stops, nor in the
coordinates of a box that is missing or has no area. -/
def resolve? (g : Gradient) (box? : Option Box) (sizes : ReferenceSizes) :
    Option ResolvedGradient :=
  if g.stops.isEmpty then none
  else
    let resolved (transform : Option Matrix) : ResolvedGradient :=
      { id := g.id
        geometry := g.geometry sizes
        spread := g.attributes.spread.getD .pad
        transform
        stops := g.stops }
    match g.units with
    | .userSpaceOnUse => some (resolved (g.attributes.transform.filter fun m => !m.isIdentity))
    | .objectBoundingBox =>
      match box? with
      | none => none
      | some b =>
        if b.width ≤ 0 || b.height ≤ 0 then none
        else
          let toBox := (Matrix.translate b.x b.y).mul (.scale b.width b.height)
          some (resolved (some (toBox.mul (g.attributes.transform.getD .identity))))

end Gradient

end SvgDisplayList
