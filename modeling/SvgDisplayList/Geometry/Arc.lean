import SvgDisplayList.Geometry.Outline

/-!
# Elliptical arcs as cubic curves

An arc is given by its end points, radii and the rotation of the ellipse, and by two flags that
choose one of the four arcs that fit.  The centre is found in the frame of the ellipse, radii that
are too small being scaled up until the end points can be reached.  The arc is then cut into equal
pieces of about a quarter turn or less, each of which is drawn as one cubic whose handles have the
length `4 / 3 · tan (δ / 4)`.

The last piece ends in the requested end point itself, not in its recomputed position.
-/

namespace SvgDisplayList

/-- A cubic curve without its start. -/
structure Cubic where
  control₁ : Point
  control₂ : Point
  finish : Point

/-- The cubic that is the same curve as a quadratic one. -/
def Cubic.ofQuadratic (start control finish : Point) : Cubic :=
  let third : Float32 := 2 / 3
  ⟨⟨start.x + third * (control.x - start.x), start.y + third * (control.y - start.y)⟩,
   ⟨finish.x + third * (control.x - finish.x), finish.y + third * (control.y - finish.y)⟩,
   finish⟩

/-- An ellipse with its axes turned. -/
structure Ellipse where
  center : Point
  rx : Float32
  ry : Float32
  sine : Float32
  cosine : Float32

namespace Ellipse

/-- A point of the unit circle's plane carried to the ellipse. -/
def place (e : Ellipse) (x y : Float32) : Point :=
  let x := e.rx * x
  let y := e.ry * y
  ⟨e.center.x + e.cosine * x - e.sine * y, e.center.y + e.sine * x + e.cosine * y⟩

/-- The piece between two angles. -/
def piece (e : Ellipse) (t₁ t₂ : Float32) : Cubic :=
  let k : Float32 := (4 / 3) * Angle.tan ((t₂ - t₁) / 4)
  let s₁ := Angle.sin t₁
  let c₁ := Angle.cos t₁
  let s₂ := Angle.sin t₂
  let c₂ := Angle.cos t₂
  ⟨e.place (c₁ - k * s₁) (s₁ + k * c₁), e.place (c₂ + k * s₂) (s₂ - k * c₂), e.place c₂ s₂⟩

/-- `count` pieces of the same angle; the last one ends in a given point. -/
def pieces (e : Ellipse) (delta : Float32) (last : Point) :
    (count : Nat) → (theta : Float32) → List Cubic
  | 0, _ => []
  | 1, theta => [{ e.piece theta (theta + delta) with finish := last }]
  | n + 2, theta => e.piece theta (theta + delta) :: pieces e delta last (n + 1) (theta + delta)

end Ellipse

/-- The parameters of an arc besides its end points. -/
structure ArcShape where
  rx : Float32
  ry : Float32
  rotation : Float32
  large : Bool
  sweep : Bool

namespace ArcShape

/-- The angle from one vector to another. -/
def angleBetween (ux uy vx vy : Float32) : Float32 :=
  let dot := ux * vx + uy * vy
  let det := ux * vy - uy * vx
  Angle.atan2 det dot

/-- A quarter turn. -/
def quarterTurn : Float32 := Angle.halfTurn / 2

/-- The cubics of an arc between two points; `none` when it degenerates to a straight line. -/
def cubics? (arc : ArcShape) (start finish : Point) : Option (List Cubic) :=
  let rx := arc.rx.abs
  let ry := arc.ry.abs
  if rx == 0 || ry == 0 || start == finish then none
  else
    let phi := Angle.ofDegrees arc.rotation
    let sine := Angle.sin phi
    let cosine := Angle.cos phi
    let dx := (start.x - finish.x) / 2
    let dy := (start.y - finish.y) / 2
    let x' := cosine * dx + sine * dy
    let y' := -sine * dx + cosine * dy
    let xx := x' * x'
    let yy := y' * y'
    let lambda := xx / (rx * rx) + yy / (ry * ry)
    let grow : Float32 := lambda.sqrt
    let rx := if lambda > 1 then rx * grow else rx
    let ry := if lambda > 1 then ry * grow else ry
    let rxx := rx * rx
    let ryy := ry * ry
    let num := rxx * ryy - rxx * yy - ryy * xx
    let den := rxx * yy + ryy * xx
    let sign : Float32 := if arc.large == arc.sweep then -1 else 1
    let coefficient : Float32 :=
      if den == 0 then 0 else sign * (Binary32.max (num / den) 0).sqrt
    let cx' := coefficient * (rx * y' / ry)
    let cy' := coefficient * (-ry * x' / rx)
    let center : Point :=
      ⟨cosine * cx' - sine * cy' + (start.x + finish.x) / 2,
        sine * cx' + cosine * cy' + (start.y + finish.y) / 2⟩
    let ux := (x' - cx') / rx
    let uy := (y' - cy') / ry
    let vx := (-x' - cx') / rx
    let vy := (-y' - cy') / ry
    let theta := angleBetween 1 0 ux uy
    let turn := angleBetween ux uy vx vy
    let turn :=
      if !arc.sweep && turn > 0 then turn - 2 * Angle.halfTurn
      else if arc.sweep && turn < 0 then turn + 2 * Angle.halfTurn
      else turn
    let count := max 1 (Binary32.ceilNat (turn.abs / quarterTurn - 0.001))
    let delta := turn / Binary32.ofNat count
    some (Ellipse.pieces ⟨center, rx, ry, sine, cosine⟩ delta finish count theta)

end ArcShape

end SvgDisplayList
