import SvgDisplayList.Style.Decoration
import SvgDisplayList.Style.Length
import SvgDisplayList.Style.Paint

/-!
# The style of an element

A style is the full record of the properties in force at an element.  Every element starts from the
style of its parent; at the top stands `Style.initial`.
-/

namespace SvgDisplayList

/-- The rule that tells the inside of a path from the outside. -/
inductive FillRule where
  | nonzero
  | evenOdd
deriving DecidableEq, Repr

/-- The shape of the ends of an open stroke. -/
inductive LineCap where
  | butt
  | round
  | square
deriving DecidableEq, Repr

/-- The shape of the corners of a stroke. -/
inductive LineJoin where
  | miter
  | round
  | bevel
deriving DecidableEq, Repr

/-- The slant of a font. -/
inductive Slant where
  | upright
  | italic
  | oblique
deriving DecidableEq, Repr

/-- The part of a text that lies at its position. -/
inductive Anchor where
  | start
  | middle
  | finish
deriving DecidableEq, Repr

/-- The properties in force at an element. -/
structure Style where
  fill : PaintSource
  fillOpacity : Float32
  fillRule : FillRule
  stroke : PaintSource
  strokeOpacity : Float32
  strokeWidth : Float32
  lineCap : LineCap
  lineJoin : LineJoin
  miterLimit : Float32
  dashes : List Float32
  dashOffset : Float32
  /-- The product of the opacities from the root to the element. -/
  opacity : Float32
  color : Color
  fontFamilies : List String
  fontSize : Float32
  fontWeight : Nat
  slant : Slant
  decorations : Decorations
  anchor : Anchor
  visible : Bool

/-- The least weight that counts as bold. -/
def boldWeight : Nat := 600

namespace Style

/-- The style above the root: black fill, no stroke, upright text of the initial size. -/
def initial : Style where
  fill := .color ⟨.black, 1⟩
  fillOpacity := 1
  fillRule := .nonzero
  stroke := .none
  strokeOpacity := 1
  strokeWidth := 1
  lineCap := .butt
  lineJoin := .miter
  miterLimit := 4
  dashes := []
  dashOffset := 0
  opacity := 1
  color := .black
  fontFamilies := ["sans-serif"]
  fontSize := initialFontSize
  fontWeight := 400
  slant := .upright
  decorations := .empty
  anchor := .start
  visible := true

def isBold (s : Style) : Bool := boldWeight ≤ s.fontWeight

def isItalic (s : Style) : Bool := s.slant != .upright

end Style

end SvgDisplayList
