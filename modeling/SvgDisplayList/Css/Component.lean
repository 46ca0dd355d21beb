import SvgDisplayList.Css.Token

/-!
# Component values

Tokens nest: a function or an opening bracket takes in everything up to its closing bracket, or up
to the end of the text.  A closing bracket without a partner stays where it is, as a token that no
value contains.

`Reader` reads from a list of components; it gives a value and the components behind it, or nothing.
-/

namespace SvgDisplayList

namespace Css

/-- A token, or a block with everything inside of it. -/
inductive Component where
  | token (t : Token)
  | call (name : String) (arguments : List Component)
  | block (b : Bracket) (content : List Component)

/-- A block that is still open: what it is, and its content in reverse. -/
structure OpenBlock where
  bracket : Bracket
  function? : Option String
  content : List Component

namespace OpenBlock

/-- The component that a block becomes. -/
def close (o : OpenBlock) : Component :=
  match o.function? with
  | some name => .call name o.content.reverse
  | none => .block o.bracket o.content.reverse

end OpenBlock

/-- Components under construction: the blocks that are open, innermost first, and what stands
outside in reverse. -/
structure Nesting where
  opened : List OpenBlock
  outside : List Component

namespace Nesting

def add (n : Nesting) (c : Component) : Nesting :=
  match n.opened with
  | o :: os => { n with opened := { o with content := c :: o.content } :: os }
  | [] => { n with outside := c :: n.outside }

/-- Takes in one token. -/
def step (n : Nesting) (t : Token) : Nesting :=
  match t with
  | .function name => { n with opened := ⟨.round, some name, []⟩ :: n.opened }
  | .opening b => { n with opened := ⟨b, none, []⟩ :: n.opened }
  | .closing b =>
    match n.opened with
    | o :: os => if o.bracket = b then add { n with opened := os } o.close else n.add (.token t)
    | [] => n.add (.token t)
  | t => n.add (.token t)

/-- Closes the open blocks, each into the one around it. -/
def closeAll (inner? : Option Component) : List OpenBlock → Option Component
  | [] => inner?
  | o :: os => closeAll (some { o with content := inner?.toList ++ o.content }.close) os

/-- All components, first to last. -/
def finish (n : Nesting) : List Component :=
  ((closeAll none n.opened).toList ++ n.outside).reverse

end Nesting

mutual

/-- How deeply a component nests. -/
def Component.depth : Component → Nat
  | .token _ => 0
  | .call _ cs => Component.depths cs + 1
  | .block _ cs => Component.depths cs + 1

/-- How deeply the deepest of some components nests. -/
def Component.depths : List Component → Nat
  | [] => 0
  | c :: cs => max c.depth (Component.depths cs)

end

/-- The components of a text. -/
def components (cs : List Char) : List Component :=
  ((tokens cs).foldl Nesting.step ⟨[], []⟩).finish

/-- A reader of components. -/
abbrev Reader (α : Type) := List Component → Option (α × List Component)

namespace Reader

/-- The components behind white space. -/
def skipSpaces : List Component → List Component
  | .token .space :: r => skipSpaces r
  | r => r

/-- The next component that is not white space. -/
def next : Reader Component := fun cs =>
  match skipSpaces cs with
  | c :: r => some (c, r)
  | [] => none

/-- Whether nothing but white space is left. -/
def isDone (cs : List Component) : Bool := (skipSpaces cs).isEmpty

/-- Text in lower case. -/
def lowered (s : String) : String := String.ofList (s.toList.map Char.toLower)

/-- Any identifier, in lower case. -/
def ident : Reader String := fun cs =>
  match next cs with
  | some (.token (.ident n), r) => some (lowered n, r)
  | _ => none

/-- A given identifier, in any case. -/
def keyword (k : String) : Reader Unit := fun cs =>
  match ident cs with
  | some (n, r) => if n = k then some ((), r) else none
  | none => none

def comma : Reader Unit := fun cs =>
  match next cs with
  | some (.token .comma, r) => some ((), r)
  | _ => none

def slash : Reader Unit := fun cs =>
  match next cs with
  | some (.token (.delim '/'), r) => some ((), r)
  | _ => none

def number : Reader Float32 := fun cs =>
  match next cs with
  | some (.token (.number v), r) => some (v, r)
  | _ => none

/-- A percentage as a share of one. -/
def percentage : Reader Float32 := fun cs =>
  match next cs with
  | some (.token (.percentage v), r) => some (v, r)
  | _ => none

/-- Reads all of a list of components. -/
def all (reader : Reader α) (cs : List Component) : Option α :=
  match reader cs with
  | some (a, r) => if isDone r then some a else none
  | none => none

end Reader

end Css

end SvgDisplayList
