import SvgDisplayList.Xml.Document

/-!
# Kinds of elements

What an element means for the drawing is decided by its name alone.  Elements of a namespace other
than that of SVG mean nothing; elements without a namespace are taken for SVG.
-/

namespace SvgDisplayList

/-- The namespace of SVG. -/
def svgSpace : String := "http://www.w3.org/2000/svg"

/-- The elements that have an outline. -/
inductive Shape where
  | path
  | rect
  | circle
  | ellipse
  | line
  | polyline
  | polygon
deriving DecidableEq, Repr

namespace Shape

def name : Shape → String
  | path => "path"
  | rect => "rect"
  | circle => "circle"
  | ellipse => "ellipse"
  | line => "line"
  | polyline => "polyline"
  | polygon => "polygon"

/-- All shapes. -/
def all : List Shape := [path, rect, circle, ellipse, line, polyline, polygon]

/-- The shape of a name. -/
def ofName? (name : String) : Option Shape := all.find? (·.name == name)

end Shape

/-- What an element means for the drawing. -/
inductive ElementKind where
  | group
  /-- Draws the first child whose conditions hold. -/
  | switch
  | shape (shape : Shape)
  | text
  | image
  | use
  /-- Is drawn only where something refers to it. -/
  | definition
  /-- Is recognised and has no effect. -/
  | unsupported
  /-- Has no visual meaning. -/
  | ignored
  | unknown
deriving DecidableEq, Repr

namespace ElementKind

/-- The kind of the SVG element of a name. -/
def ofName (name : String) : ElementKind :=
  match Shape.ofName? name with
  | some s => shape s
  | none =>
    if ["g", "a"].contains name then group
    else if name = "switch" then switch
    else if name = "text" then text
    else if name = "image" then image
    else if name = "use" then use
    else if ["defs", "symbol", "linearGradient", "radialGradient", "style"].contains name then
      definition
    else if ["clipPath", "mask", "filter", "pattern", "marker", "svg", "foreignObject"].contains
        name then
      unsupported
    else if ["title", "desc", "metadata", "script"].contains name then ignored
    else unknown

/-- The kind of an element. -/
def ofTag (tag : Xml.Tag) : ElementKind :=
  match tag.space? with
  | none => ofName tag.name
  | some space => if space = svgSpace then ofName tag.name else ignored

end ElementKind

end SvgDisplayList
