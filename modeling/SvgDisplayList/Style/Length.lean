import SvgDisplayList.Number.Decimal
import SvgDisplayList.Text.Blank

/-!
# Lengths

A length is a number with a unit or a percentage.  Absolute units are fixed multiples of the user
unit; `em` and `ex` are multiples of the font size, and a percentage refers to a side of the
viewport or to its normalised diagonal.
-/

namespace SvgDisplayList

/-- The direction of a length, which decides what a percentage refers to. -/
inductive Axis where
  | horizontal
  | vertical
  | diagonal
deriving DecidableEq, Repr

/-- The sizes that relative lengths refer to. -/
structure ReferenceSizes where
  fontSize : Float32
  viewportWidth : Float32
  viewportHeight : Float32
deriving BEq

/-- The initial font size. -/
def initialFontSize : Float32 := 16

namespace ReferenceSizes

def initial : ReferenceSizes := ⟨initialFontSize, 100, 100⟩

/-- The length that all of a hundred per cent makes. -/
def percentBase (r : ReferenceSizes) : Axis → Float32
  | .horizontal => r.viewportWidth
  | .vertical => r.viewportHeight
  | .diagonal =>
    ((r.viewportWidth * r.viewportWidth + r.viewportHeight * r.viewportHeight) / 2).sqrt

/-- The units with their sizes, in the order in which they are tried. -/
def units (r : ReferenceSizes) : List (String × Float32) :=
  [("px", 1), ("pt", 4 / 3), ("pc", 16), ("mm", 96 / 25.4), ("cm", 96 / 2.54), ("in", 96),
   ("em", r.fontSize), ("ex", r.fontSize / 2)]

/-- The number before a unit and the size of the unit; a number alone counts user units. -/
def splitUnit (r : ReferenceSizes) (cs : List Char) : List Char × Float32 :=
  let hit (u : String × Float32) : Option (List Char × Float32) :=
    (Text.before? u.1.toList cs).map fun n => (n, u.2)
  (r.units.findSome? hit).getD (cs, 1)

/-- The length that a text denotes, in user units. -/
def resolve (r : ReferenceSizes) (axis : Axis) (cs : List Char) : Option Float32 :=
  let cs := Text.trim cs
  match Text.before? ['%'] cs with
  | some p => (finiteNumber? (Text.trim p)).map fun v => r.percentBase axis * v / 100
  | none =>
    let (n, size) := r.splitUnit cs
    (finiteNumber? (Text.trim n)).map fun v => v * size

end ReferenceSizes

/-- A share between nothing and all, written as a number or a percentage. -/
def opacity? (cs : List Char) : Option Float32 :=
  let cs := Text.trim cs
  let share := match Text.before? ['%'] cs with
    | some p => (finiteNumber? (Text.trim p)).map fun v => v / 100
    | none => finiteNumber? cs
  share.map fun v => Binary32.clamp v 0 1

/-- A plain number, blanks around it. -/
def number? (cs : List Char) : Option Float32 := finiteNumber? (Text.trim cs)

end SvgDisplayList
