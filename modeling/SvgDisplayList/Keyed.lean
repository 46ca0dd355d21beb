/-!
# Values under names

A list of named values in which every name occurs once.  A name keeps the place of its first writing
and has the value of its last.
-/

namespace SvgDisplayList

/-- Values under names, in the order in which the names were first written. -/
abbrev Keyed (α : Type) := List (String × α)

namespace Keyed

/-- The value under a name. -/
def get? {α : Type} (entries : Keyed α) (name : String) : Option α :=
  (entries.find? (·.1 == name)).map (·.2)

/-- The entries with one value replaced, or added at the end. -/
def put {α : Type} (name : String) (value : α) : Keyed α → Keyed α
  | [] => [(name, value)]
  | (k, v) :: rest => if k = name then (k, value) :: rest else (k, v) :: put name value rest

/-- The entries with a value added at the end, unless the name has one. -/
def putNew {α : Type} (name : String) (value : α) : Keyed α → Keyed α
  | [] => [(name, value)]
  | (k, v) :: rest => if k = name then (k, v) :: rest else (k, v) :: putNew name value rest

end Keyed

end SvgDisplayList
