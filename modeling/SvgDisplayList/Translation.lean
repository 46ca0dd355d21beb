import SvgDisplayList.Error
import SvgDisplayList.Scene.Drawing

/-!
# Translations

A document is translated in two passes.  The first one collects its definitions, the second one
draws the children of the root element.  Between two children, and nowhere else, the abort signal is
looked at: a translation is complete or there is none.
-/

namespace SvgDisplayList

/-- How documents are translated. -/
structure Settings where
  /-- The size of the output, unless the root element decides. -/
  viewport? : Option (Float32 × Float32)
  /-- How much the whole drawing is enlarged. -/
  scale : Float32
  /-- Whether to stop after the definitions. -/
  definitionsOnly : Bool
  /-- How deep uses may nest. -/
  reuseLimit : Nat
  fonts : FontSource

namespace Settings

def initial : Settings := ⟨none, 1, false, 16, .usual⟩

end Settings

/-- What a document is translated to. -/
structure Translation where
  drawing : Drawing
  definitions : DefinitionCounts

namespace Translation

/-- The diagnostics that are warnings. -/
def warnings (t : Translation) : List Diagnostic :=
  t.drawing.diagnostics.filter fun d => d.severity == .warning

end Translation

/-! ### The root element -/

/-- How the root element lies in the output. -/
structure Frame where
  /-- The size that percentages refer to. -/
  width : Float32
  height : Float32
  matrix : Matrix

namespace Frame

/-- A positive length that refers to nothing else. -/
def side? (value : String) : Option Float32 :=
  if (Text.before? ['%'] (Text.trim value.toList)).isSome then none
  else (ReferenceSizes.initial.resolve .horizontal value.toList).filter fun v => v > 0

/-- The size that the root element gives itself. -/
def ownSize? (root : Xml.Tag) : Option (Float32 × Float32) := do
  let w ← (root.attribute? "width").bind side?
  let h ← (root.attribute? "height").bind side?
  return (w, h)

/-- The frame of a root element: its view box is fitted into the viewport.  Without a viewport the
view box is only moved to the origin; without a view box nothing is moved. -/
def ofRoot (settings : Settings) (root : Xml.Tag) : Frame :=
  let viewBox? := (root.attribute? "viewBox").bind ViewBox.ofText?
  let viewport? := settings.viewport?.or (ownSize? root)
  let (width, height) := match viewBox?, viewport? with
    | some v, _ => (v.width, v.height)
    | none, some size => size
    | none, none => (ReferenceSizes.initial.viewportWidth, ReferenceSizes.initial.viewportHeight)
  let matrix := match viewBox?, viewport? with
    | some v, some (w, h) => v.fit w h (root.attribute? "preserveAspectRatio")
    | some v, none => .translate (-v.x) (-v.y)
    | none, _ => .identity
  let scaled :=
    if settings.scale == 1 then matrix else (Matrix.scale settings.scale settings.scale).mul matrix
  ⟨width, height, scaled⟩

/-- The stage of a document. -/
def stage (frame : Frame) (settings : Settings) (registry : Registry) : Stage where
  registry := registry
  fonts := settings.fonts
  viewportWidth := frame.width
  viewportHeight := frame.height
  reuseLimit := settings.reuseLimit

/-- The place of the children of the root element. -/
def place (frame : Frame) (stage : Stage) (root : Xml.Tag) : Place where
  style := Style.initial.derive (.ofTag root) (stage.sizes initialFontSize)
  matrix := Matrix.identity.mul frame.matrix
  chain := []

end Frame

/-! ### Drawing with an abort signal -/

/-- Whether a drawing has raised the abort signal through the queries of its texts. -/
def Drawing.raisesAbort (d : Drawing) (fonts : FontSource) : Bool :=
  d.commands.any fun c => (c.query?.map fonts.raisesAbort).getD false

/-- Draws the elements among nodes one over another, unless the abort signal is raised when one of
them is about to start.  Returns the drawing, if it is complete, and the signal. -/
def Stage.drawUnlessAborted (stage : Stage) (ancestors : List Xml.Tag) (place : Place) :
    List Xml.Node → (raised : Bool) → Option Drawing × Bool
  | [], raised => (some .empty, raised)
  | .text _ :: ns, raised => stage.drawUnlessAborted ancestors place ns raised
  | .element tag children :: ns, raised =>
    if raised then (none, true)
    else
      let d := stage.draw (.element tag children) ancestors place
      let (rest, raised) := stage.drawUnlessAborted ancestors place ns (d.raisesAbort stage.fonts)
      (rest.map (d ++ ·), raised)

/-! ### Documents -/

/-- The drawing of a document, if the abort signal lets it be completed, and the signal
afterwards. -/
def Settings.draw (settings : Settings) (root : Xml.Element) (registry : Registry) (raised : Bool) :
    Option Drawing × Bool :=
  let frame := Frame.ofRoot settings root.tag
  let stage := frame.stage settings registry
  stage.drawUnlessAborted [root.tag] (frame.place stage root.tag) root.children raised

/-- Translates a document whose tree has been read. -/
def Settings.translateTree (settings : Settings) (document : Xml.Document) (raised : Bool) :
    Except DocumentError Translation × Bool :=
  let root := document.root
  if root.name ≠ "svg" then (.error (.unexpectedRoot root.name), raised)
  else
    let (registry, reports) := Registry.collect root
    let translation (d : Drawing) : Translation := ⟨.reports reports ++ d, registry.counts⟩
    if settings.definitionsOnly then (.ok (translation .empty), raised)
    else
      match settings.draw root registry raised with
      | (some d, raised) => (.ok (translation d), raised)
      | (none, raised) => (.error .aborted, raised)

/-- Translates a document, the abort signal being raised or not.  Returns the signal as well, which
texts may raise. -/
def Settings.translateWith (settings : Settings) (text : String) (raised : Bool) :
    Except DocumentError Translation × Bool :=
  match Xml.Document.read text with
  | .error e => (.error e, raised)
  | .ok document => settings.translateTree document raised

/-- Translates a document in the usual way. -/
def Translation.ofText (text : String) : Except DocumentError Translation :=
  (Settings.initial.translateWith text false).1

end SvgDisplayList
