import SvgDisplayList.Scene.Lettering
import SvgDisplayList.Scene.Picture
import SvgDisplayList.Scene.ShapeOutline
import SvgDisplayList.Scene.ViewBox
import SvgDisplayList.Style.Inheritance

/-!
# The drawing of an element

The walk over the document hands a place to every element: the style it inherits, the matrix of its
parent, and the identifiers of the uses that it is drawn through.  What an element draws depends on
the element, its place and the stage alone, and nothing flows back from it but its drawing.

An element is drawn by recursion over its subtree.  A use leaves the subtree, so the recursion is
parametrised by what a use does, and uses are counted down from the limit of nesting: `Stage.reuse
n` draws the targets of uses that may nest `n` deep.
-/

namespace SvgDisplayList

/-- A list of commands in paint order, and what there was to report. -/
structure Drawing where
  commands : List DrawCommand
  diagnostics : List Diagnostic

namespace Drawing

def empty : Drawing := ⟨[], []⟩

/-- One drawing over another. -/
def append (a b : Drawing) : Drawing := ⟨a.commands ++ b.commands, a.diagnostics ++ b.diagnostics⟩

instance : Append Drawing := ⟨append⟩

/-- Nothing but reports. -/
def reports (ds : List Diagnostic) : Drawing := ⟨[], ds⟩

/-- The report that something is wrong with an element. -/
def fault (tag : Xml.Tag) (error : ElementError) : Diagnostic :=
  .element tag.name (tag.attribute? "id") error

/-- A drawing that is replaced by a report of what went wrong with it. -/
def orFault (tag : Xml.Tag) : Except ElementError Drawing → Drawing
  | .ok d => d
  | .error e => reports [fault tag e]

/-- At most one command, with reports of what went wrong on the way to it. -/
def single (tag : Xml.Tag) (matrix : Matrix) (drawable : Option Drawable)
    (errors : List ElementError) : Drawing :=
  ⟨(drawable.map fun d => ⟨d, matrix⟩).toList, errors.map (fault tag)⟩

end Drawing

/-- Where an element is drawn. -/
structure Place where
  style : Style
  matrix : Matrix
  /-- The identifiers of the uses that the element is drawn through, the innermost one first. -/
  chain : List String

namespace Place

/-- The place moved by a map of its own coordinates. -/
def moved (p : Place) (m : Matrix) : Place := { p with matrix := p.matrix.mul m }

end Place

/-- What stays the same during the drawing of a document. -/
structure Stage where
  registry : Registry
  fonts : FontSource
  viewportWidth : Float32
  viewportHeight : Float32
  /-- How deep uses may nest. -/
  reuseLimit : Nat

/-- What a use does: it draws its target, whose ancestors are given, at a place, with a width and a
height of its own. -/
abbrev Reuse := Xml.Element → List Xml.Tag → Place → Option Float32 → Option Float32 → Drawing

namespace Stage

/-- The sizes that the lengths of an element refer to. -/
def sizes (stage : Stage) (fontSize : Float32) : ReferenceSizes :=
  ⟨fontSize, stage.viewportWidth, stage.viewportHeight⟩

/-- The reports that an element asks for features without effect. -/
def unsupported (tag : Xml.Tag) (d : Declarations) : List Diagnostic :=
  d.unsupported.map fun feature => .unsupportedFeature tag.name feature

/-- The map that an element gives its coordinates. -/
def localMatrix (tag : Xml.Tag) : Except ElementError Matrix :=
  match tag.attribute? "transform" with
  | none => .ok .identity
  | some value => (Matrix.ofTransformList value).mapError .invalidTransform

/-- Draws an element in its own style and coordinates.  An element that is taken out of the drawing
draws and reports nothing, one whose transform is faulty draws nothing. -/
def enter (stage : Stage) (tag : Xml.Tag) (place : Place)
    (draw : (style : Style) → (matrix : Matrix) → Drawing) :
    Drawing :=
  let d := Declarations.ofTag tag
  if d.displayNone then .empty
  else
    Drawing.reports (unsupported tag d) ++
      match localMatrix tag with
      | .error e => Drawing.reports [Drawing.fault tag e]
      | .ok m => draw (place.style.derive d (stage.sizes initialFontSize)) m

/-- Draws a shape. -/
def shape (stage : Stage) (shape : Shape) (tag : Xml.Tag) (place : Place) :
    Except ElementError Drawing := do
  let sizes := stage.sizes place.style.fontSize
  let subpaths ← shape.subpaths tag sizes
  let (command, errors) := PathCommand.ofSubpaths subpaths place.style stage.registry sizes
  return .single tag place.matrix (command.map .path) errors

/-- Sets a text. -/
def text (stage : Stage) (e : Xml.Element) (place : Place) : Except ElementError Drawing := do
  let sizes := stage.sizes place.style.fontSize
  let (command, errors) ← TextCommand.ofElement e place.style stage.registry sizes stage.fonts
  return .single e.tag place.matrix (command.map .text) errors

/-- Places an image; a hidden one is not even looked at. -/
def image (stage : Stage) (tag : Xml.Tag) (place : Place) : Except ElementError Drawing := do
  if !place.style.visible then return .empty
  let command ← ImageCommand.ofTag tag (stage.sizes place.style.fontSize)
  return .single tag place.matrix (command.map .image) []

/-- Draws what a use refers to.  The target must not be an element that the use stands in, nor one
that is already drawn through a use, and there must be room left for another use. -/
def use (stage : Stage) (reuse? : Option Reuse) (tag : Xml.Tag) (ancestors : List Xml.Tag)
    (place : Place) :
    Except ElementError Drawing := do
  let sizes := stage.sizes place.style.fontSize
  match tag.reference? with
  | none => .error (.missingAttribute "href")
  | some id =>
    match stage.registry.element? id with
    | none => .error (.unresolvedReference id)
    | some (target, targetAncestors) =>
      if place.chain.contains id || (tag :: ancestors).any (·.order == target.tag.order) then
        .error (.referenceCycle id)
      else
        match reuse? with
        | none => .error (.reuseTooDeep stage.reuseLimit)
        | some reuse =>
          let x ← tag.length "x" .horizontal sizes
          let y ← tag.length "y" .vertical sizes
          let width ← tag.length? "width" .horizontal sizes
          let height ← tag.length? "height" .vertical sizes
          let place := { place with chain := id :: place.chain }.moved (.translate x y)
          return reuse target targetAncestors place width height

/-- Whether a switch may choose an element: it means something, and it does not ask for
extensions. -/
def isCandidate (tag : Xml.Tag) : Bool :=
  ElementKind.ofTag tag != .ignored &&
    match tag.attribute? "requiredExtensions" with
    | none => true
    | some v => (Text.trim v.toList).isEmpty

mutual

/-- Draws a node whose ancestors are given, nearest first. -/
def node (stage : Stage) (reuse? : Option Reuse) : Xml.Node → List Xml.Tag → Place → Drawing
  | .text _, _, _ => .empty
  | .element tag children, ancestors, place =>
    match ElementKind.ofTag tag with
    | .ignored | .definition => .empty
    | .unsupported => .reports [.unsupportedFeature tag.name tag.name]
    | .unknown => .reports [Drawing.fault tag (.unsupportedElement tag.name)]
    | kind =>
      stage.enter tag place fun style matrix =>
        let place := { place with style }.moved matrix
        match kind with
        | .group => stage.nodes reuse? children (tag :: ancestors) place
        | .switch => stage.firstNode reuse? children (tag :: ancestors) place
        | .shape s => .orFault tag (stage.shape s tag place)
        | .text => .orFault tag (stage.text ⟨tag, children⟩ place)
        | .image => .orFault tag (stage.image tag place)
        | .use => .orFault tag (stage.use reuse? tag ancestors place)
        | _ => .empty

/-- Draws nodes one over another. -/
def nodes (stage : Stage) (reuse? : Option Reuse) : List Xml.Node → List Xml.Tag → Place → Drawing
  | [], _, _ => .empty
  | n :: ns, ancestors, place =>
    stage.node reuse? n ancestors place ++ stage.nodes reuse? ns ancestors place

/-- Draws the first node that a switch may choose. -/
def firstNode (stage : Stage) (reuse? : Option Reuse) :
    List Xml.Node → List Xml.Tag → Place → Drawing
  | [], _, _ => .empty
  | n :: ns, ancestors, place =>
    match n with
    | .element tag children =>
      if isCandidate tag then stage.node reuse? (.element tag children) ancestors place
      else stage.firstNode reuse? ns ancestors place
    | .text _ => stage.firstNode reuse? ns ancestors place

end

/-- The map that fits a symbol into the box of its use. -/
def symbolFit (tag : Xml.Tag) (width height : Option Float32) : Matrix :=
  match (tag.attribute? "viewBox").bind ViewBox.ofText? with
  | some v =>
    v.fit (width.getD v.width) (height.getD v.height) (tag.attribute? "preserveAspectRatio")
  | none => .identity

/-- What a use does if uses may nest to a depth below it.  A symbol, which draws nothing where it
stands, draws its children where it is used. -/
def reuse (stage : Stage) : (depth : Nat) → Option Reuse
  | 0 => none
  | depth + 1 => some fun target ancestors place width height =>
    let deeper := stage.reuse depth
    if target.name = "symbol" then
      stage.enter target.tag place fun style matrix =>
        stage.nodes deeper target.children (target.tag :: ancestors)
          ({ place with style }.moved (matrix.mul (symbolFit target.tag width height)))
    else stage.node deeper target.node ancestors place

/-- Draws a node with uses nesting as deep as the stage allows. -/
def draw (stage : Stage) (n : Xml.Node) (ancestors : List Xml.Tag) (place : Place) : Drawing :=
  stage.node (stage.reuse stage.reuseLimit) n ancestors place

end Stage

end SvgDisplayList
