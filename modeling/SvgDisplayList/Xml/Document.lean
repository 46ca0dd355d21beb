/-!
# The document tree

A document is a tree of elements and runs of character data.  Every element carries its place in
document order, by which it is told apart from every other element, however similar.
-/

namespace SvgDisplayList

namespace Xml

/-- An attribute with the namespace that its prefix stands for. -/
structure Attribute where
  space? : Option String
  name : String
  value : String
deriving DecidableEq, Repr

/-- What an element is, apart from its content. -/
structure Tag where
  /-- The place of the element in document order. -/
  order : Nat
  space? : Option String
  name : String
  attributes : List Attribute
deriving Repr

namespace Tag

/-- The value of an attribute of a namespace. -/
def attributeIn? (t : Tag) (space : Option String) (name : String) : Option String :=
  (t.attributes.find? fun a => a.space? == space && a.name == name).map (·.value)

/-- The value of an attribute without a namespace. -/
def attribute? (t : Tag) (name : String) : Option String := t.attributeIn? none name

end Tag

/-- An element with its content, or a run of character data. -/
inductive Node where
  | element (tag : Tag) (children : List Node)
  | text (content : String)

/-- An element with its content. -/
structure Element where
  tag : Tag
  children : List Node

namespace Node

/-- The element that a node is. -/
def element? : Node → Option Element
  | element tag children => some ⟨tag, children⟩
  | text _ => none

/-- The character data of a node and all nodes below it. -/
def characters : Node → List Char
  | text s => s.toList
  | element _ children => charactersOf children
where
  charactersOf : List Node → List Char
    | [] => []
    | n :: ns => n.characters ++ charactersOf ns

/-- Every element of a subtree in document order, each with the tags of its ancestors inside the
subtree, nearest first, before those it is given. -/
def elements (ancestors : List Tag) : Node → List (Element × List Tag)
  | text _ => []
  | element tag children => (⟨tag, children⟩, ancestors) :: elementsOf (tag :: ancestors) children
where
  elementsOf (ancestors : List Tag) : List Node → List (Element × List Tag)
    | [] => []
    | n :: ns => n.elements ancestors ++ elementsOf ancestors ns

end Node

namespace Element

def node (e : Element) : Node := .element e.tag e.children

def name (e : Element) : String := e.tag.name

def attribute? (e : Element) (name : String) : Option String := e.tag.attribute? name

/-- The elements among the children, in document order. -/
def childElements (e : Element) : List Element := e.children.filterMap Node.element?

/-- The character data of the element and all elements below it. -/
def characters (e : Element) : List Char := e.node.characters

end Element

/-- A well-formed document.  Further elements can stand beside the root element only through
entities that close it early. -/
structure Document where
  root : Element
  beside : List Element

end Xml

end SvgDisplayList
