import SvgDisplayList.Geometry.Arc

/-!
# Drawing steps and the pen

Path data is a list of drawing steps, one for each complete set of arguments.  The pen carries them
out: it stands at a current point, remembers where the last move went, and remembers the last
control point of a curve for the smooth step that may follow.  Every step but a curve forgets the
control points, and a curve of one degree forgets that of the other.
-/

namespace SvgDisplayList

/-- What a drawing step does.  Points are read relative to the current point when the step says
so. -/
inductive Motion where
  | move (to_ : Point)
  | line (to_ : Point)
  | horizontal (x : Float32)
  | vertical (y : Float32)
  | cubic (control₁ control₂ to_ : Point)
  | smoothCubic (control₂ to_ : Point)
  | quadratic (control to_ : Point)
  | smoothQuadratic (to_ : Point)
  | arc (shape : ArcShape) (to_ : Point)
  | close

/-- One drawing step. -/
structure Step where
  relative : Bool
  motion : Motion

/-- The pen between two steps. -/
structure Pen where
  outline : Outline
  current : Point
  start : Point
  cubicControl? : Option Point
  quadraticControl? : Option Point

namespace Pen

/-- The pen before the first step. -/
def initial : Pen := ⟨.empty, .origin, .origin, none, none⟩

/-- The point that an argument pair means. -/
def resolve (pen : Pen) (relative : Bool) (p : Point) : Point :=
  if relative then pen.current.shift p else p

/-- A straight line to a point. -/
def lineTo (pen : Pen) (p : Point) : Pen :=
  ⟨pen.outline.lineTo p, p, pen.start, none, none⟩

/-- A cubic curve, whose second control point is remembered. -/
def cubicTo (pen : Pen) (p q r : Point) : Pen :=
  ⟨pen.outline.cubicTo p q r, r, pen.start, some q, none⟩

/-- A quadratic curve, drawn as a cubic one; its own control point is remembered. -/
def quadraticTo (pen : Pen) (control finish : Point) : Pen :=
  let c := Cubic.ofQuadratic pen.current control finish
  ⟨pen.outline.cubicTo c.control₁ c.control₂ finish, finish, pen.start, none, some control⟩

/-- The control point of a smooth step: the mirror image of the last one, or the current point. -/
def smoothControl (pen : Pen) (last? : Option Point) : Point :=
  match last? with
  | some p => p.reflect pen.current
  | none => pen.current

/-- An elliptical arc. -/
def arcTo (pen : Pen) (shape : ArcShape) (p : Point) : Pen :=
  match shape.cubics? pen.current p with
  | none => pen.lineTo p
  | some cubics =>
    let outline := cubics.foldl (fun o c => o.cubicTo c.control₁ c.control₂ c.finish) pen.outline
    ⟨outline, p, pen.start, none, none⟩

/-- The pen after one step. -/
def step (pen : Pen) (s : Step) : Pen :=
  let at_ := pen.resolve s.relative
  match s.motion with
  | .move p => ⟨pen.outline.moveTo (at_ p), at_ p, at_ p, none, none⟩
  | .line p => pen.lineTo (at_ p)
  | .horizontal x => pen.lineTo ⟨if s.relative then pen.current.x + x else x, pen.current.y⟩
  | .vertical y => pen.lineTo ⟨pen.current.x, if s.relative then pen.current.y + y else y⟩
  | .cubic p q r => pen.cubicTo (at_ p) (at_ q) (at_ r)
  | .smoothCubic q r => pen.cubicTo (pen.smoothControl pen.cubicControl?) (at_ q) (at_ r)
  | .quadratic c p => pen.quadraticTo (at_ c) (at_ p)
  | .smoothQuadratic p => pen.quadraticTo (pen.smoothControl pen.quadraticControl?) (at_ p)
  | .arc shape p => pen.arcTo shape (at_ p)
  | .close => ⟨pen.outline.close, pen.start, pen.start, none, none⟩

/-- The pen after a list of steps. -/
def run (pen : Pen) (steps : List Step) : Pen := steps.foldl step pen

end Pen

/-- The outline that a list of steps draws. -/
def Step.draw (steps : List Step) : List Subpath := (Pen.initial.run steps).outline.subpaths

end SvgDisplayList
