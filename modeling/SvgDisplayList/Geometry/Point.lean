import SvgDisplayList.Number.FixedPoint

/-!
# Points and boxes
-/

namespace SvgDisplayList

/-- A point of a user coordinate system; the second axis points down. -/
structure Point where
  x : Float32
  y : Float32
deriving BEq, Inhabited

namespace Point

def origin : Point := ⟨0, 0⟩

/-- The translate of a point by a vector. -/
def shift (p by_ : Point) : Point := ⟨p.x + by_.x, p.y + by_.y⟩

/-- The mirror image of `p` in `center`. -/
def reflect (p center : Point) : Point := ⟨2 * center.x - p.x, 2 * center.y - p.y⟩

/-- A point moved to the milli grid. -/
def snapped (p : Point) : Point := ⟨snap p.x, snap p.y⟩

end Point

/-- An axis-parallel box. -/
structure Box where
  x : Float32
  y : Float32
  width : Float32
  height : Float32
deriving BEq

end SvgDisplayList
