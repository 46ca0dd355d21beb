import SvgDisplayList.Geometry.Point
import SvgDisplayList.Number.Trigonometry

/-!
# Affine maps of the plane

A matrix `(a, b, c, d, e, f)` sends `(x, y)` to `(a x + c y + e, b x + d y + f)`.  `l.mul r` is the
map that applies `r` first.  All sums are taken in the order written, since single-precision
addition is not associative.
-/

namespace SvgDisplayList

/-- An affine map of the plane. -/
structure Matrix where
  a : Float32
  b : Float32
  c : Float32
  d : Float32
  e : Float32
  f : Float32
deriving BEq

namespace Matrix

def identity : Matrix := ⟨1, 0, 0, 1, 0, 0⟩

def translate (x y : Float32) : Matrix := ⟨1, 0, 0, 1, x, y⟩

def scale (x y : Float32) : Matrix := ⟨x, 0, 0, y, 0, 0⟩

/-- The rotation by an angle in degrees around the origin. -/
def rotate (degrees : Float32) : Matrix :=
  let angle := Angle.ofDegrees degrees
  let s := Angle.sin angle
  let c := Angle.cos angle
  ⟨c, s, -s, c, 0, 0⟩

/-- The shear along the first axis. -/
def skewX (degrees : Float32) : Matrix := ⟨1, 0, Angle.tan (Angle.ofDegrees degrees), 1, 0, 0⟩

/-- The shear along the second axis. -/
def skewY (degrees : Float32) : Matrix := ⟨1, Angle.tan (Angle.ofDegrees degrees), 0, 1, 0, 0⟩

/-- The composite of two maps; the right one is applied first. -/
def mul (l r : Matrix) : Matrix where
  a := l.a * r.a + l.c * r.b
  b := l.b * r.a + l.d * r.b
  c := l.a * r.c + l.c * r.d
  d := l.b * r.c + l.d * r.d
  e := l.a * r.e + l.c * r.f + l.e
  f := l.b * r.e + l.d * r.f + l.f

/-- The rotation by an angle in degrees around a point. -/
def rotateAbout (degrees x y : Float32) : Matrix :=
  ((translate x y).mul (rotate degrees)).mul (translate (-x) (-y))

/-- The image of a point. -/
def apply (m : Matrix) (p : Point) : Point :=
  ⟨m.a * p.x + m.c * p.y + m.e, m.b * p.x + m.d * p.y + m.f⟩

/-- Whether the map is the identity, zeros of either sign being equal. -/
def isIdentity (m : Matrix) : Bool := m == identity

/-- The factor by which the map scales lengths on average: the square root of the factor for
areas. -/
def scaleFactor (m : Matrix) : Float32 :=
  Binary32.max (m.a * m.d - m.b * m.c).abs.sqrt 0

end Matrix

end SvgDisplayList
