import SvgDisplayList.Text.Blank

/-!
# File names

The stem of a file name is the name without its extension, the part from the last dot on.  A dot at
the very start of a name does not set off an extension.
-/

namespace SvgDisplayList

namespace FileName

/-- The part of a path behind its last slash. -/
def last (path : List Char) : List Char := ((Text.pieces (· == '/') path).getLast?).getD []

/-- The directory of a path, its slash included. -/
def directory (path : List Char) : List Char := path.take (path.length - (last path).length)

/-- A file name without its extension. -/
def stem (name : List Char) : List Char :=
  match Text.beforeLast? ['.'] name with
  | some (c :: cs) => if name = ['.', '.'] then name else c :: cs
  | _ => name

end FileName

end SvgDisplayList
