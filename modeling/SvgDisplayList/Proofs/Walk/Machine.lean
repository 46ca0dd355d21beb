import Mathlib.Logic.Function.Iterate
import SvgDisplayList.Proofs.Drawing.Expansion

/-!
# The walk over a document, moment by moment

The drawing of a node is one value, so it has no moments.  This file describes the same drawing as
the run of a machine that does one small task at a time.  The machine holds a stack of matrices, the
chain of the uses around the present element, all that has been drawn so far, and the agenda of what
is left to do, the next task first.

An element that is entered pushes its matrix, and its agenda ends with a task that leaves it again.
A use that is expanded pushes its move and its identifier, and the agenda behind its target ends
with a task that ends the use.  So the tasks that leave elements are a record of the elements that
are being drawn (`Walk.path`), and the tasks that end uses are one of the uses in force
(`Walk.targets`).

Nothing in the machine counts levels down: a use compares the length of the chain with the limit.
That the machine stops at all is a theorem (`Stage.draws_node`), and so is that it draws what
`Stage.node` draws.
-/

namespace SvgDisplayList

/-! ## Tasks and states -/

/-- Something that the walk has to do. -/
inductive Task where
  /-- Draws a node in the style of its parent. -/
  | node (n : Xml.Node) (ancestors : List Xml.Tag) (style : Style)
  /-- Draws the content of an element that has been entered, in its own style. -/
  | content (e : Xml.Element) (ancestors : List Xml.Tag) (style : Style)
  /-- Draws a symbol in the style and the size of its use. -/
  | symbol (e : Xml.Element) (ancestors : List Xml.Tag) (style : Style)
      (width height : Option Float32)
  /-- Leaves an element. -/
  | leave (tag : Xml.Tag) (ancestors : List Xml.Tag)
  /-- Ends the use of a target. -/
  | endUse (id : String) (target : Xml.Tag)

namespace Task

/-- The element that a task leaves. -/
def left? : Task → Option Xml.Tag
  | leave tag _ => some tag
  | _ => none

/-- The target whose use a task ends. -/
def target? : Task → Option Xml.Tag
  | endUse _ target => some target
  | _ => none

/-- The elements that an agenda leaves, innermost first. -/
def path (ts : List Task) : List Xml.Tag := ts.filterMap left?

/-- The targets whose uses an agenda ends, innermost first. -/
def targets (ts : List Task) : List Xml.Tag := ts.filterMap target?

end Task

/-- The state of the walk at a moment. -/
structure Walk where
  /-- The matrices of the elements and the uses around the present one, innermost first. -/
  matrices : List Matrix
  /-- The identifiers of the uses around the present element, innermost first. -/
  chain : List String
  drawn : Drawing
  /-- What is left to do, the next task first. -/
  agenda : List Task

namespace Walk

/-- The matrix in force. -/
def matrix (w : Walk) : Matrix := w.matrices.headD .identity

/-- Puts a map before the matrix in force. -/
def push (w : Walk) (m : Matrix) : Walk := { w with matrices := w.matrix.mul m :: w.matrices }

/-- Takes the matrix in force away. -/
def pop (w : Walk) : Walk := { w with matrices := w.matrices.tail }

/-- Draws over what has been drawn. -/
def draw (w : Walk) (d : Drawing) : Walk := { w with drawn := w.drawn ++ d }

/-- Puts tasks before all others. -/
def plan (w : Walk) (ts : List Task) : Walk := { w with agenda := ts ++ w.agenda }

/-- The place of the present element in its own style. -/
def place (w : Walk) (style : Style) : Place := ⟨style, w.matrix, w.chain⟩

/-- The elements that are being drawn, innermost first. -/
def path (w : Walk) : List Xml.Tag := Task.path w.agenda

/-- The targets of the uses in force, innermost first. -/
def targets (w : Walk) : List Xml.Tag := Task.targets w.agenda

end Walk

/-! ## Steps -/

/-- Draws a list of nodes, the ancestors and the style being those of their parent's children. -/
def Task.nodes (ns : List Xml.Node) (ancestors : List Xml.Tag) (style : Style) : List Task :=
  ns.map fun n => .node n ancestors style

namespace Stage

/-- What an expanded use draws. -/
def Expansion.task (x : Expansion) (style : Style) : Task :=
  if x.target.name = "symbol" then .symbol x.target x.ancestors style x.width x.height
  else .node x.target.node x.ancestors style

/-- Enters an element: its reports are made, and if it is to be drawn, `tasks` has the agenda for
its own style and matrix. -/
def enterWalk (stage : Stage) (w : Walk) (tag : Xml.Tag) (style : Style)
    (tasks : Style → Matrix → Walk → Walk) :
    Walk :=
  let w := w.draw (.reports (entryReports tag))
  match stage.entered? tag style with
  | none => w
  | some (style, own) => tasks style own w

/-- What a task does to the state. -/
def perform (stage : Stage) (w : Walk) : Task → Walk
  | .node (.text _) _ _ => w
  | .node (.element tag children) ancestors style =>
    match aside? tag with
    | some d => w.draw d
    | none =>
      stage.enterWalk w tag style fun style own w =>
        (w.push own).plan [.content ⟨tag, children⟩ ancestors style, .leave tag ancestors]
  | .content e ancestors style =>
    match ElementKind.ofTag e.tag with
    | .group => w.plan (Task.nodes e.children (e.tag :: ancestors) style)
    | .switch => w.plan (Task.nodes (e.children.find? isChoice).toList (e.tag :: ancestors) style)
    | .shape s => w.draw (.orFault e.tag (stage.shape s e.tag (w.place style)))
    | .text => w.draw (.orFault e.tag (stage.text e (w.place style)))
    | .image => w.draw (.orFault e.tag (stage.image e.tag (w.place style)))
    | .use =>
      match stage.expansion e.tag ancestors style w.chain with
      | .error err => w.draw (.reports [Drawing.fault e.tag err])
      | .ok x =>
        ({ w with chain := x.id :: w.chain }.push (.translate x.x x.y)).plan
          [x.task style, .endUse x.id x.target.tag]
    | _ => w
  | .symbol e ancestors style width height =>
    stage.enterWalk w e.tag style fun style own w =>
      (w.push (own.mul (symbolFit e.tag width height))).plan
        (Task.nodes e.children (e.tag :: ancestors) style ++ [.leave e.tag ancestors])
  | .leave _ _ => w.pop
  | .endUse _ _ => { w.pop with chain := w.chain.tail }

/-- Does the next task.  The walk rests when there is nothing left to do. -/
def advance (stage : Stage) (w : Walk) : Walk :=
  match w.agenda with
  | [] => w
  | t :: ts => stage.perform { w with agenda := ts } t

/-- The start of the walk over the children of a root element. -/
def start (root : Xml.Element) (place : Place) : Walk where
  matrices := [place.matrix]
  chain := place.chain
  drawn := .empty
  agenda := Task.nodes root.children [root.tag] place.style ++ [.leave root.tag []]

end Stage

end SvgDisplayList
