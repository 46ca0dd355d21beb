import SvgDisplayList.Text.Blank

/-!
# Text decorations

A text may be struck through, overlined and underlined.  A set of decorations is always shown in the
order of their names.
-/

namespace SvgDisplayList

/-- A line drawn along a text. -/
inductive Decoration where
  | lineThrough
  | overline
  | underline
deriving DecidableEq, Repr

namespace Decoration

def name : Decoration → String
  | lineThrough => "line-through"
  | overline => "overline"
  | underline => "underline"

/-- The decoration that a keyword names, in any case. -/
def ofKeyword? (cs : List Char) : Option Decoration :=
  match String.ofList (Text.lower cs) with
  | "underline" => some underline
  | "line-through" => some lineThrough
  | "strike-through" => some lineThrough
  | "overline" => some overline
  | _ => none

end Decoration

/-- A set of decorations. -/
structure Decorations where
  lineThrough : Bool
  overline : Bool
  underline : Bool
deriving DecidableEq, Repr

namespace Decorations

def empty : Decorations := ⟨false, false, false⟩

def contains (s : Decorations) : Decoration → Bool
  | .lineThrough => s.lineThrough
  | .overline => s.overline
  | .underline => s.underline

def insert (s : Decorations) : Decoration → Decorations
  | .lineThrough => { s with lineThrough := true }
  | .overline => { s with overline := true }
  | .underline => { s with underline := true }

/-- The members in the order of their names. -/
def toList (s : Decorations) : List Decoration :=
  [.lineThrough, .overline, .underline].filter s.contains

def size (s : Decorations) : Nat := s.toList.length

def isEmpty (s : Decorations) : Bool := s.toList.isEmpty

@[simp] theorem contains_insert (s : Decorations) (d e : Decoration) :
    (s.insert d).contains e = (e == d || s.contains e) := by
  cases d <;> cases e <;> rfl

/-- The set that a value names.  Unknown words are skipped; a value without any decoration and
without the word `none` names no set at all. -/
def ofValue? (cs : List Char) : Option Decorations :=
  let words := Text.words Text.isBlank cs
  let found := words.filterMap Decoration.ofKeyword?
  if found.isEmpty && !words.any (fun w => Text.lower w == "none".toList) then none
  else some (found.foldl insert empty)

end Decorations

end SvgDisplayList
