import SvgDisplayList.Number.FixedPoint
import SvgDisplayList.Style.Decoration

/-!
# Font metrics

The vertical measures of a font place the decoration lines of a text.  They are multiples of the
font size and count upwards from the baseline, while the lines are placed downwards from it.
-/

namespace SvgDisplayList

/-- The vertical measures of a font, in multiples of the font size. -/
structure FontMetrics where
  ascent : Float32
  descent : Float32
  capHeight : Float32
  underlinePosition : Float32
  underlineThickness : Float32
  strikeoutPosition : Float32
  strikeoutThickness : Float32
deriving BEq

/-- A line along a text, its offset counted downwards from the baseline. -/
structure DecorationLine where
  decoration : Decoration
  offset : Float32
  thickness : Float32
deriving BEq

namespace FontMetrics

/-- The measures of a font of which nothing is known. -/
def usual : FontMetrics where
  ascent := 0.8
  descent := -0.2
  capHeight := 0.7
  underlinePosition := -0.1
  underlineThickness := 0.05
  strikeoutPosition := 0.3
  strikeoutThickness := 0.05

/-- The height and the thickness of a decoration; a line above the text is as thick as one below
it. -/
def placement (m : FontMetrics) : Decoration → Float32 × Float32
  | .underline => (m.underlinePosition, m.underlineThickness)
  | .lineThrough => (m.strikeoutPosition, m.strikeoutThickness)
  | .overline => (m.ascent, m.underlineThickness)

/-- The line that a decoration draws along a text of a size. -/
def line (m : FontMetrics) (size : Float32) (d : Decoration) : DecorationLine :=
  let (position, thickness) := m.placement d
  ⟨d, snap (-position * size), snap (thickness * size)⟩

end FontMetrics

/-- What a text asks a font for. -/
structure FontQuery where
  families : List String
  bold : Bool
  italic : Bool
deriving DecidableEq, Repr

/-- Where metrics come from. -/
structure FontSource where
  metrics : FontQuery → FontMetrics
  /-- Whether a query raises the abort signal of the translation that makes it. -/
  raisesAbort : FontQuery → Bool

namespace FontSource

/-- The source that answers every query in the same way. -/
def usual : FontSource := ⟨fun _ => .usual, fun _ => false⟩

end FontSource

end SvgDisplayList
