import SvgDisplayList.Font.Metrics
import SvgDisplayList.Geometry.Outline
import SvgDisplayList.Gradient.Resolution
import SvgDisplayList.Image.Format
import SvgDisplayList.Style.Basic

/-!
# Draw commands

The display list is made of three kinds of commands.  The geometry of a command is in the
coordinates of its element, and its matrix leads from there to the output.  Later commands are
painted over earlier ones.
-/

namespace SvgDisplayList

/-- What to paint with. -/
inductive Paint where
  | solid (color : Color) (opacity : Float32)
  | gradient (gradient : ResolvedGradient) (opacity : Float32)

namespace Paint

def opacity : Paint → Float32
  | solid _ opacity => opacity
  | gradient _ opacity => opacity

end Paint

/-- How the inside of a path is painted. -/
structure Fill where
  paint : Paint
  rule : FillRule

/-- How the outline of a path is painted. -/
structure Stroke where
  paint : Paint
  width : Float32
  cap : LineCap
  join : LineJoin
  miterLimit : Float32
  dashes : List Float32
  dashOffset : Float32

/-- A path to paint. -/
structure PathCommand where
  subpaths : List Subpath
  fill : Option Fill
  stroke : Option Stroke

/-- The font that a text asks for. -/
structure FontChoice where
  families : List String
  size : Float32
  weight : Nat
  bold : Bool
  italic : Bool

/-- A text to set. -/
structure TextCommand where
  content : String
  position : Point
  font : FontChoice
  fill : Option Paint
  anchor : Anchor
  decorations : Decorations
  lines : List DecorationLine

/-- An image to place. -/
structure ImageCommand where
  data : List UInt8
  format : ImageFormat
  box : Box

/-- What a command draws. -/
inductive Drawable where
  | path (path : PathCommand)
  | text (text : TextCommand)
  | image (image : ImageCommand)

/-- A drawable and the map from its coordinates to the output. -/
structure DrawCommand where
  drawable : Drawable
  matrix : Matrix

namespace FontChoice

/-- The query for the metrics of a font. -/
def query (f : FontChoice) : FontQuery := ⟨f.families, f.bold, f.italic⟩

end FontChoice

namespace DrawCommand

/-- The query that a command has made. -/
def query? (c : DrawCommand) : Option FontQuery :=
  match c.drawable with
  | .text t => some t.font.query
  | _ => none

end DrawCommand

end SvgDisplayList
