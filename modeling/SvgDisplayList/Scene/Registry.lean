import SvgDisplayList.Gradient.Chain
import SvgDisplayList.Gradient.Reader
import SvgDisplayList.Keyed

/-!
# The registry of definitions

Every element with an identifier can be referred to, from before and from behind.  So the registry
is complete before anything is drawn.  Where an identifier occurs more than once, its last element
counts, and each replacement is reported.  A gradient that cannot be read is reported and left out.

Gradients are collected beside the registry as well: a gradient inherits from the last gradient of
an identifier, in whatever order the two stand.
-/

namespace SvgDisplayList

/-- What an identifier stands for. -/
inductive Definition where
  /-- An element with the tags of its ancestors, nearest first. -/
  | element (element : Xml.Element) (ancestors : List Xml.Tag)
  | gradient (gradient : Gradient)

namespace Definition

/-- The name of the element that is defined. -/
def tagName : Definition → String
  | element e _ => e.name
  | gradient g => g.kind.elementName

end Definition

/-- The number of definitions of each sort, and of replacements. -/
structure DefinitionCounts where
  elements : Nat
  linearGradients : Nat
  radialGradients : Nat
  conflicts : Nat
deriving DecidableEq, Repr

namespace DefinitionCounts

/-- The number of identifiers in use. -/
def total (c : DefinitionCounts) : Nat := c.elements + c.linearGradients + c.radialGradients

end DefinitionCounts

/-- What the identifiers of a document stand for. -/
structure Registry where
  entries : Keyed Definition
  conflicts : Nat

namespace Registry

/-- The element of an identifier, and the tags of its ancestors. -/
def element? (r : Registry) (id : String) : Option (Xml.Element × List Xml.Tag) :=
  match Keyed.get? r.entries id with
  | some (.element e ancestors) => some (e, ancestors)
  | _ => none

/-- The gradient of an identifier. -/
def gradient? (r : Registry) (id : String) : Option Gradient :=
  match Keyed.get? r.entries id with
  | some (.gradient g) => some g
  | _ => none

/-- How many definitions are of a sort. -/
def count (r : Registry) (p : Definition → Bool) : Nat :=
  (r.entries.filter fun (_, d) => p d).length

def counts (r : Registry) : DefinitionCounts where
  elements := r.count fun | .element .. => true | _ => false
  linearGradients := r.count fun | .gradient g => g.kind == .linear | _ => false
  radialGradients := r.count fun | .gradient g => g.kind == .radial | _ => false
  conflicts := r.conflicts

end Registry

/-! ### Collecting -/

/-- A registry under construction, with the last gradient of each identifier and what there was to
report. -/
structure Collection where
  registry : Registry
  gradients : List Gradient
  diagnostics : List Diagnostic

namespace Collection

def empty : Collection := ⟨⟨[], 0⟩, [], []⟩

/-- The identifier of an element, blanks around it taken off. -/
def identifier? (e : Xml.Element) : Option String :=
  ((e.attribute? "id").map Text.trimString).filter fun id => !id.isEmpty

/-- Reports something. -/
def report (c : Collection) (d : Diagnostic) : Collection :=
  { c with diagnostics := c.diagnostics ++ [d] }

/-- Gives an identifier its meaning, the one it had before being replaced. -/
def define (c : Collection) (id : String) (d : Definition) : Collection :=
  let entries := Keyed.put id d c.registry.entries
  match Keyed.get? c.registry.entries id with
  | none => { c with registry := { c.registry with entries } }
  | some previous =>
    { c with registry := ⟨entries, c.registry.conflicts + 1⟩ }.report
      (.definitionConflict id previous.tagName d.tagName)

/-- Makes a gradient the last one of its identifier. -/
def addGradient (c : Collection) (g : Gradient) : Collection :=
  { c with gradients := Gradient.without g.id c.gradients ++ [g] }

/-- Collects an element. -/
def add (c : Collection) (e : Xml.Element) (ancestors : List Xml.Tag) : Collection :=
  match identifier? e with
  | none => c
  | some id =>
    match GradientKind.ofElementName? e.name with
    | none => c.define id (.element e ancestors)
    | some kind =>
      match Gradient.ofElement kind id e with
      | .ok g => (c.addGradient g).define id (.gradient g)
      | .error error => c.report (.element e.name (some id) error)

/-- A definition with all that it inherits. -/
def complete (gradients : List Gradient) : Definition → Definition
  | .element e ancestors => .element e ancestors
  | .gradient g => .gradient (g.inherit gradients)

/-- The finished registry. -/
def finish (c : Collection) : Registry :=
  { c.registry with entries := c.registry.entries.map fun (id, d) => (id, complete c.gradients d) }

end Collection

/-- The registry of all that stands below a root, the root included, and what there was to
report. -/
def Registry.collect (root : Xml.Element) : Registry × List Diagnostic :=
  let c :=
    (root.node.elements []).foldl (fun c (e, ancestors) => c.add e ancestors) Collection.empty
  (c.finish, c.diagnostics)

end SvgDisplayList
