/-!
# Blanks, trimming and splitting

Attribute values are read as lists of characters.  Two classes of blanks occur: the white space of
Unicode, which trims names and values and separates words, and the ASCII white space of markup.
`trim`, `splitAt?` and `pieces` are the only ways in which the library cuts a text.
-/

namespace SvgDisplayList

namespace Text

/-- The white space of Unicode. -/
def isBlank (c : Char) : Bool :=
  let n := c.toNat
  (0x09 ≤ n && n ≤ 0x0d) || n == 0x20 || n == 0x85 || n == 0xa0 || n == 0x1680 ||
    (0x2000 ≤ n && n ≤ 0x200a) || n == 0x2028 || n == 0x2029 || n == 0x202f || n == 0x205f ||
    n == 0x3000

/-- White space of ASCII, form feed included and vertical tabulation not. -/
def isAsciiBlank (c : Char) : Bool :=
  c == ' ' || c == '\t' || c == '\n' || c == '\r' || c == '\x0c'

/-- A text without the characters of a class at its start. -/
def dropLeading (p : Char → Bool) (cs : List Char) : List Char := cs.dropWhile p

/-- A text without the characters of a class at its end. -/
def dropTrailing (p : Char → Bool) (cs : List Char) : List Char := (cs.reverse.dropWhile p).reverse

/-- A text without the characters of a class at either end. -/
def trimBy (p : Char → Bool) (cs : List Char) : List Char := dropTrailing p (dropLeading p cs)

/-- A text without blanks at either end. -/
def trim (cs : List Char) : List Char := trimBy isBlank cs

/-- A string without blanks at either end. -/
def trimString (s : String) : String := String.ofList (trim s.toList)

/-- The text before the first character of a class and the text behind it. -/
def splitAt? (p : Char → Bool) : List Char → Option (List Char × List Char)
  | [] => none
  | c :: r => if p c then some ([], r) else (splitAt? p r).map fun (a, b) => (c :: a, b)

/-- The text behind a separator is shorter than all of the text. -/
theorem length_lt_of_splitAt? {p : Char → Bool} {cs a b : List Char}
    (h : splitAt? p cs = some (a, b)) :
    b.length < cs.length := by
  induction cs generalizing a with
  | nil => simp [splitAt?] at h
  | cons c r ih =>
    simp only [splitAt?] at h
    split at h
    · simp_all
    · simp only [Option.map_eq_some_iff, Prod.mk.injEq, Prod.exists] at h
      obtain ⟨a', b', h', _, rfl⟩ := h
      exact Nat.lt_succ_of_lt (ih h')

/-- The pieces between the characters of a class; there is one piece more than there are
separators. -/
def pieces (p : Char → Bool) : List Char → List (List Char)
  | [] => [[]]
  | c :: r =>
    if p c then [] :: pieces p r
    else
      match pieces p r with
      | [] => [[c]]
      | w :: ws => (c :: w) :: ws

/-- The non-empty pieces between the characters of a class. -/
def words (p : Char → Bool) (cs : List Char) : List (List Char) :=
  (pieces p cs).filter fun w => !w.isEmpty

/-- A text in lower case, letters beyond ASCII untouched. -/
def lower (cs : List Char) : List Char := cs.map Char.toLower

/-- Equality up to the case of ASCII letters. -/
def sameIgnoringCase (a b : List Char) : Bool := lower a == lower b

/-- What follows a given start. -/
def after? : List Char → List Char → Option (List Char)
  | [], cs => some cs
  | p :: ps, c :: cs => if p = c then after? ps cs else none
  | _ :: _, [] => none

/-- What precedes a given end. -/
def before? (ending cs : List Char) : Option (List Char) :=
  (after? ending.reverse cs.reverse).map List.reverse

/-- The text before the last occurrence of a word, if it occurs. -/
def beforeLast? (word : List Char) : List Char → Option (List Char)
  | [] => if word.isEmpty then some [] else none
  | c :: r =>
    match beforeLast? word r with
    | some a => some (c :: a)
    | none => (after? word (c :: r)).map fun _ => []

/-- The texts of a list with a separator between each two. -/
def join (separator : String) : List String → String
  | [] => ""
  | [s] => s
  | s :: r => s ++ separator ++ join separator r

end Text

end SvgDisplayList
