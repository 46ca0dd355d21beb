import SvgDisplayList.Geometry.Matrix

/-!
# Outlines

The geometry of a shape is a list of subpaths, each made of straight lines and cubic curves.
`Outline` collects subpaths from drawing steps: a move opens a subpath, a step without one reopens
at the last move, and a subpath that never got a segment is dropped.

The bounds of an outline are those of all its points, control points included; they contain the
curves, since a cubic lies in the hull of its control points.
-/

namespace SvgDisplayList

/-- One piece of a subpath, starting where the piece before it ends. -/
inductive Segment where
  | line (to_ : Point)
  | cubic (control₁ control₂ to_ : Point)
deriving BEq, Inhabited

namespace Segment

/-- The point where a segment ends. -/
def finish : Segment → Point
  | line p => p
  | cubic _ _ p => p

/-- A segment with all its points moved. -/
def map (f : Point → Point) : Segment → Segment
  | line p => line (f p)
  | cubic p q r => cubic (f p) (f q) (f r)

/-- All points of a segment but the one it starts from. -/
def points : Segment → List Point
  | line p => [p]
  | cubic p q r => [p, q, r]

end Segment

/-- A connected piece of an outline. -/
structure Subpath where
  start : Point
  segments : Array Segment
  closed : Bool
deriving BEq, Inhabited

namespace Subpath

/-- The subpath that has only been moved to. -/
def opened (start : Point) : Subpath := ⟨start, #[], false⟩

/-- A subpath with all its points moved. -/
def map (f : Point → Point) (s : Subpath) : Subpath :=
  ⟨f s.start, s.segments.map (·.map f), s.closed⟩

/-- The image of a subpath. -/
def transformed (s : Subpath) (m : Matrix) : Subpath := s.map m.apply

/-- A subpath moved to the milli grid. -/
def snapped (s : Subpath) : Subpath := s.map Point.snapped

/-- All points of a subpath, control points included. -/
def points (s : Subpath) : List Point :=
  s.start :: s.segments.toList.flatMap Segment.points

/-- Where the pen stands at the end of a subpath. -/
def finish (s : Subpath) : Point :=
  match s.segments.back? with
  | some g => g.finish
  | none => s.start

end Subpath

/-! ### Bounds -/

/-- The least and the greatest coordinates seen so far. -/
structure Extent where
  least : Point
  greatest : Point

namespace Extent

def empty : Extent :=
  ⟨⟨Binary32.infinity, Binary32.infinity⟩, ⟨Binary32.negInfinity, Binary32.negInfinity⟩⟩

/-- The extent with one point more. -/
def add (e : Extent) (p : Point) : Extent :=
  ⟨⟨Binary32.min e.least.x p.x, Binary32.min e.least.y p.y⟩,
   ⟨Binary32.max e.greatest.x p.x, Binary32.max e.greatest.y p.y⟩⟩

/-- The box of an extent, if all four sides are finite. -/
def box? (e : Extent) : Option Box :=
  if e.least.x.isFinite && e.least.y.isFinite && e.greatest.x.isFinite && e.greatest.y.isFinite then
    some ⟨e.least.x, e.least.y,
      Binary32.max (e.greatest.x - e.least.x) 0, Binary32.max (e.greatest.y - e.least.y) 0⟩
  else none

end Extent

/-- The box around all points of a list of subpaths. -/
def bounds? (subpaths : List Subpath) : Option Box :=
  ((subpaths.flatMap Subpath.points).foldl Extent.add .empty).box?

/-! ### Drawing -/

/-- Subpaths under construction: those that are finished, the open one, and the point to reopen
at. -/
structure Outline where
  finished : Array Subpath
  current? : Option Subpath
  anchor : Point

namespace Outline

def empty : Outline := ⟨#[], none, .origin⟩

/-- The subpath to draw on. -/
def current (o : Outline) : Subpath := o.current?.getD (.opened o.anchor)

/-- The finished subpaths with one more, if it has a segment. -/
def keep (done : Array Subpath) (s : Subpath) : Array Subpath :=
  if s.segments.isEmpty then done else done.push s

/-- All subpaths, the open one included. -/
def flushed (o : Outline) : Array Subpath :=
  match o.current? with
  | some s => keep o.finished s
  | none => o.finished

/-- Opens a subpath at a point. -/
def moveTo (o : Outline) (p : Point) : Outline := ⟨o.flushed, some (.opened p), p⟩

/-- Draws a segment. -/
def draw (o : Outline) (g : Segment) : Outline :=
  { o with current? := some { o.current with segments := o.current.segments.push g } }

def lineTo (o : Outline) (p : Point) : Outline := o.draw (.line p)

def cubicTo (o : Outline) (p q r : Point) : Outline := o.draw (.cubic p q r)

/-- Closes the open subpath, if there is one. -/
def close (o : Outline) : Outline :=
  match o.current? with
  | some s => { o with finished := keep o.finished { s with closed := true }, current? := none }
  | none => o

/-- The subpaths of the finished drawing. -/
def subpaths (o : Outline) : List Subpath := o.flushed.toList

end Outline

end SvgDisplayList
