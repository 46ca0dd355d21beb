import SvgDisplayList.Geometry.Matrix
import SvgDisplayList.Number.Decimal
import SvgDisplayList.Text.Blank

/-!
# Transform lists

The value of a `transform` attribute is a list of functions such as `translate(10, 20) rotate(45)`.
The functions compose from left to right, so that the last one is applied to a point first.

A list is read one function at a time.  The first faulty function decides the error: a missing
parenthesis, then a bad number, then the name, then the number of arguments.
-/

namespace SvgDisplayList

/-- Why a transform list is refused. -/
inductive TransformError where
  | unknownFunction (name : String)
  | invalidArguments (name : String)
  | malformed
deriving DecidableEq, Repr

namespace TransformError

def message : TransformError → String
  | unknownFunction name => "unknown transform function '" ++ name ++ "'"
  | invalidArguments name => "wrong arguments for transform function '" ++ name ++ "'"
  | malformed => "malformed transform list"

end TransformError

/-- Numbers separate each other by blanks and commas. -/
def isListSeparator (c : Char) : Bool := Text.isBlank c || c == ','

/-- The numbers of a list; `none` if one of its words is not a finite number. -/
def numberList? (cs : List Char) : Option (List Float32) :=
  (Text.words isListSeparator cs).mapM finiteNumber?

namespace TransformList

/-- One function as written: its trimmed name and the text between the parentheses. -/
structure Call where
  name : List Char
  arguments : List Char

/-- The map of a function applied to its arguments. -/
def matrixOf (name : String) (arguments : List Float32) : Except TransformError Matrix :=
  match name, arguments with
  | "translate", [x] => .ok (.translate x 0)
  | "translate", [x, y] => .ok (.translate x y)
  | "scale", [s] => .ok (.scale s s)
  | "scale", [x, y] => .ok (.scale x y)
  | "rotate", [a] => .ok (.rotate a)
  | "rotate", [a, x, y] => .ok (.rotateAbout a x y)
  | "skewX", [a] => .ok (.skewX a)
  | "skewY", [a] => .ok (.skewY a)
  | "matrix", [a, b, c, d, e, f] => .ok ⟨a, b, c, d, e, f⟩
  | "", _ => .error .malformed
  | name, _ =>
    if name ∈ ["translate", "scale", "rotate", "skewX", "skewY", "matrix"] then
      .error (.invalidArguments name)
    else .error (.unknownFunction name)

/-- The map of one function. -/
def Call.matrix (call : Call) : Except TransformError Matrix :=
  let name := String.ofList call.name
  match numberList? call.arguments with
  | none => .error (.invalidArguments name)
  | some arguments => matrixOf name arguments

/-- The first function of a non-empty text, and the text behind it and its separators. -/
def next? (cs : List Char) : Option (Call × { r : List Char // r.length < cs.length }) :=
  match h₁ : Text.splitAt? (· == '(') cs with
  | none => none
  | some (name, r₁) =>
    match h₂ : Text.splitAt? (· == ')') r₁ with
    | none => none
    | some (arguments, r₂) =>
      some (⟨Text.trim name, arguments⟩, ⟨r₂.dropWhile isListSeparator, by
        have := Text.length_lt_of_splitAt? h₁
        have := Text.length_lt_of_splitAt? h₂
        have := (List.dropWhile_sublist isListSeparator (l := r₂)).length_le
        omega⟩)

/-- The product of `m` and the functions of a text, from left to right. -/
def composeFrom (m : Matrix) (cs : List Char) : Except TransformError Matrix :=
  if cs.isEmpty then .ok m
  else
    match next? cs with
    | none => .error .malformed
    | some (call, rest) =>
      match call.matrix with
      | .error e => .error e
      | .ok n => composeFrom (m.mul n) rest.1
termination_by cs.length
decreasing_by exact rest.2

end TransformList

/-- The map that a transform list denotes. -/
def Matrix.ofTransformList (value : String) : Except TransformError Matrix :=
  TransformList.composeFrom .identity (Text.trim value.toList)

end SvgDisplayList
