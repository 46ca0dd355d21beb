import SvgDisplayList.Scene.Painting

/-!
# Texts

A text is one run: all character data below the element, with each run of blanks made one space.  It
is set at the first of its coordinates, and the metrics of its font place its decoration lines.
-/

namespace SvgDisplayList

namespace TextCommand

/-- Character data with blanks at its ends taken off and every other run of blanks made one
space. -/
def collapse (cs : List Char) : String :=
  Text.join " " ((Text.words Text.isBlank cs).map String.ofList)

/-- The first length of an attribute that lists lengths; zero if it lists none. -/
def firstLength (tag : Xml.Tag) (name : String) (axis : Axis) (sizes : ReferenceSizes) :
    Except ElementError Float32 :=
  match tag.attribute? name with
  | none => .ok 0
  | some raw =>
    match Text.words isListSeparator raw.toList with
    | [] => .ok 0
    | first :: _ =>
      match sizes.resolve axis first with
      | some v => .ok v
      | none => .error (.invalidAttribute name raw)

/-- The position of a text. -/
def positionOf (tag : Xml.Tag) (sizes : ReferenceSizes) : Except ElementError Point := do
  let x ← firstLength tag "x" .horizontal sizes
  let dx ← firstLength tag "dx" .horizontal sizes
  let y ← firstLength tag "y" .vertical sizes
  let dy ← firstLength tag "dy" .vertical sizes
  return ⟨x + dx, y + dy⟩

/-- The font that a style asks for. -/
def fontOf (style : Style) : FontChoice :=
  ⟨style.fontFamilies, snap style.fontSize, style.fontWeight, style.isBold, style.isItalic⟩

/-- The command that sets the text of an element, if there is anything to set, and what went wrong
with its paint. -/
def ofElement (e : Xml.Element) (style : Style) (registry : Registry) (sizes : ReferenceSizes)
    (fonts : FontSource) :
    Except ElementError (Option TextCommand × List ElementError) := do
  let position ← positionOf e.tag sizes
  let content := collapse e.characters
  if content.isEmpty || !style.visible then return (none, [])
  let scope : PaintScope := ⟨registry, sizes, none⟩
  let (fill, errors) := scope.paint style.fill style.fillOpacity style
  let font := fontOf style
  let lines := style.decorations.toList.map ((fonts.metrics font.query).line style.fontSize)
  let command : TextCommand :=
    { content, position := position.snapped, font, fill, anchor := style.anchor,
      decorations := style.decorations, lines }
  return (some command, errors)

end TextCommand

end SvgDisplayList
