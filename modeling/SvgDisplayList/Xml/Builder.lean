import SvgDisplayList.Xml.Document
import SvgDisplayList.Xml.Prolog

/-!
# Growing the document tree

The reader hands tags and text to a builder, which holds the elements that are still open, innermost
first.  Opening an element resolves its prefixes: the declarations of its own tag come first, then
those of its parent that they do not hide, and the first declaration of a prefix counts.

Attributes wait in the builder for the end of their tag.  A replacement text may break off inside a
tag; the attributes read so far then belong to the tag that ends next.
-/

namespace SvgDisplayList

namespace Xml

/-- The URI bound to the prefix `xml`. -/
def xmlUri : String := "http://www.w3.org/XML/1998/namespace"

/-- The URI that no prefix may be bound to. -/
def xmlnsUri : String := "http://www.w3.org/2000/xmlns/"

/-- A namespace declaration: the prefix, or none for the default namespace, and the URI. -/
abbrev Scope := List (Option String × String)

/-- An attribute whose prefix is not yet resolved. -/
structure PendingAttribute where
  space : String
  name : String
  value : String
  position : Position

/-- The name of a tag, and where the tag starts. -/
structure TagName where
  space : String
  name : String
  position : Position

/-- An element that is still open; its children stand in reverse. -/
structure OpenElement where
  space : String
  tag : Tag
  scope : Scope
  children : List Node

/-- The tree under construction. -/
structure Builder where
  opened : List OpenElement
  /-- The finished elements outside of all others, in reverse. -/
  finished : List Element
  /-- The number of elements so far. -/
  count : Nat
  /-- The declarations of the tag that has not ended yet. -/
  declared : Scope
  /-- The attributes of the tag that has not ended yet. -/
  attributes : List PendingAttribute
  /-- Whether a tag has been opened since the current replacement text began. -/
  tagSeen : Bool
  /-- The number of nested entity references since the last one outside of any entity. -/
  references : Nat

namespace Builder

def empty : Builder := ⟨[], [], 0, [], [], false, 0⟩

/-- Appends a node to the innermost open element.  Text outside of all elements is dropped. -/
def append (b : Builder) (n : Node) : Builder :=
  match b.opened with
  | e :: es => { b with opened := { e with children := n :: e.children } :: es }
  | [] =>
    match n.element? with
    | some e => { b with finished := e :: b.finished }
    | none => b

/-- Appends character data. -/
def appendText (b : Builder) (cs : List Char) : Builder :=
  if cs.isEmpty then b else b.append (.text (String.ofList cs))

/-- The declarations that hold inside the innermost open element. -/
def scope (b : Builder) : Scope :=
  match b.opened with
  | e :: _ => e.scope
  | [] => []

/-- The declarations that hold inside the tag that has not ended yet. -/
def innerScope (b : Builder) : Scope :=
  b.declared ++ b.scope.filter fun (space, _) => !b.declared.any (·.1 == space)

/-- The namespace of a prefix; the absence of a default namespace is no fault. -/
def namespaceOf (scope : Scope) (space : String) (at_ : Position) :
    Except XmlError (Option String) :=
  let key := if space.isEmpty then none else some space
  match scope.find? (·.1 == key) with
  | some (_, uri) => .ok (some uri)
  | none => if space.isEmpty then .ok none else .error (.unknownNamespace space at_)

/-- Resolves the attributes of a tag, in order; no two of them may have the same expanded name. -/
def resolveAttributes (scope : Scope) :
    (done : List Attribute) → List PendingAttribute → Except XmlError (List Attribute)
  | done, [] => .ok done.reverse
  | done, a :: rest => do
    let space ←
      if a.space == "xml" then pure (some xmlUri)
      else if a.space.isEmpty then pure none
      else namespaceOf scope a.space a.position
    if done.any fun d => d.space? == space && d.name == a.name then
      .error (.duplicateAttribute a.name a.position)
    else resolveAttributes scope (⟨space, a.name, a.value⟩ :: done) rest

/-- Ends a tag: its scope, its attributes, and a builder in which none are waiting. -/
def endTag (b : Builder) : Except XmlError (Scope × List Attribute × Builder) := do
  let scope := b.innerScope
  let attributes ← resolveAttributes scope [] b.attributes
  return (scope, attributes, { b with declared := [], attributes := [] })

/-- The element that a complete tag opens. -/
def resolve (b : Builder) (t : TagName) : Except XmlError (OpenElement × Builder) := do
  let (scope, attributes, b) ← b.endTag
  let space ← namespaceOf scope t.space (t.position.after '<')
  return (⟨t.space, ⟨b.count, space, t.name, attributes⟩, scope, []⟩, b)

/-- Opens an element. -/
def openTag (b : Builder) (t : TagName) : Except XmlError Builder := do
  let (e, b) ← b.resolve t
  return { b with opened := e :: b.opened, count := b.count + 1 }

/-- Appends an element without content. -/
def emptyTag (b : Builder) (t : TagName) : Except XmlError Builder := do
  let (e, b) ← b.resolve t
  return { b.append (.element e.tag []) with count := b.count + 1 }

/-- A name with its prefix. -/
def qualified (space name : String) : String :=
  if space.isEmpty then name else space ++ ":" ++ name

/-- Closes the innermost element, which must have the name of the closing tag.  Attributes that are
waiting end with it. -/
def closeTag (b : Builder) (space name : String) (at_ : Position) : Except XmlError Builder :=
  if !b.tagSeen then .error (.strayCloseTag at_)
  else do
    let (_, _, b) ← b.endTag
    match b.opened with
    | [] => .error (.strayCloseTag at_)
    | e :: es =>
      if e.space == space && e.tag.name == name then
        return append { b with opened := es } (.element e.tag e.children.reverse)
      else
        .error (.closeTagMismatch (qualified e.space e.tag.name) (qualified space name) at_)

/-- Adds an attribute to the tag that has not ended yet, or the namespace declaration that it is. -/
def addAttribute (b : Builder) (space name value : String) (at_ : Position) :
    Except XmlError Builder :=
  if space == "xmlns" then
    if value == xmlnsUri then .error (.xmlnsUriDeclared at_)
    else if name == "xml" && value != xmlUri then .error (.xmlPrefixRebound at_)
    else if name != "xml" && value == xmlUri then .error (.xmlUriMisused at_)
    else if b.declared.any (·.1 == some name) then .error (.duplicateNamespace name at_)
    else if value == xmlUri then .ok b
    else .ok { b with declared := b.declared ++ [(some name, value)] }
  else if name == "xmlns" then
    if value == xmlUri then .error (.xmlUriMisused at_)
    else if value == xmlnsUri then .error (.xmlnsUriDeclared at_)
    else .ok { b with declared := b.declared ++ [(none, value)] }
  else .ok { b with attributes := b.attributes ++ [⟨space, name, value, at_⟩] }

end Builder

end Xml

end SvgDisplayList
