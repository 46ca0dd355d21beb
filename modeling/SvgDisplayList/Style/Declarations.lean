import SvgDisplayList.Keyed
import SvgDisplayList.Text.Blank
import SvgDisplayList.Xml.Document

/-!
# Declarations

What an element says about its own style: the presentation attributes first, then the entries of its
`style` attribute.  A name keeps the place of its first declaration and has the value of its last.
-/

namespace SvgDisplayList

/-- The declarations of one element, names with trimmed values. -/
structure Declarations where
  entries : Keyed String
deriving DecidableEq, Repr

namespace Declarations

def empty : Declarations := ⟨[]⟩

/-- Declares a value. -/
def set (d : Declarations) (name value : String) : Declarations :=
  ⟨Keyed.put name (Text.trimString value) d.entries⟩

/-- The value of a name. -/
def get? (d : Declarations) (name : String) : Option String := Keyed.get? d.entries name

/-- The declaration that one piece of a style text makes: a name in lower case, a colon and a value,
of which everything from its last `!important` on is cut off. -/
def ofPiece? (piece : List Char) : Option (String × String) :=
  match Text.splitAt? (· == ':') piece with
  | none => none
  | some (k, v) =>
    let key := Text.lower (Text.trim k)
    let value := Text.trim v
    let value := match Text.beforeLast? "!important".toList value with
      | some before => Text.trim before
      | none => value
    if key.isEmpty || value.isEmpty then none else some (String.ofList key, String.ofList value)

/-- The declarations that a style text makes, in order. -/
def ofStyle (style : List Char) : List (String × String) :=
  (Text.pieces (· == ';') style).filterMap ofPiece?

/-- Makes the declarations of a style text. -/
def addStyle (d : Declarations) (style : String) : Declarations :=
  (ofStyle style.toList).foldl (fun d (k, v) => d.set k v) d

/-- The attributes that are declarations, in the order in which they are read. -/
def presentationAttributes : List String :=
  ["fill", "fill-opacity", "fill-rule", "stroke", "stroke-width", "stroke-opacity",
   "stroke-linecap", "stroke-linejoin", "stroke-miterlimit", "stroke-dasharray",
   "stroke-dashoffset", "opacity", "color", "font-family", "font-size", "font-weight", "font-style",
   "text-decoration", "text-decoration-line", "text-anchor", "visibility", "display", "clip-path",
   "mask", "filter", "marker-start", "marker-mid", "marker-end", "stop-color", "stop-opacity"]

/-- The properties that are recognised but have no effect. -/
def unsupportedProperties : List String :=
  ["clip-path", "mask", "filter", "marker-start", "marker-mid", "marker-end"]

/-- The declarations that an element makes. -/
def ofTag (tag : Xml.Tag) : Declarations :=
  let attributes := presentationAttributes.foldl (fun d name =>
    match tag.attribute? name with
    | some value => d.set name value
    | none => d) empty
  match tag.attribute? "style" with
  | some style => attributes.addStyle style
  | none => attributes

/-- Whether the element is taken out of the drawing. -/
def displayNone (d : Declarations) : Bool :=
  match d.get? "display" with
  | some v => Text.sameIgnoringCase v.toList "none".toList
  | none => false

/-- The names that ask for something without effect. -/
def unsupported (d : Declarations) : List String :=
  (d.entries.filter fun (k, v) => unsupportedProperties.contains k && v != "none").map (·.1)

end Declarations

end SvgDisplayList
