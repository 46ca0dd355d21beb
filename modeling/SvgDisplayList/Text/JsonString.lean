/-!
# JSON strings

In a JSON string the quote, the backslash and the control characters are written as escapes; all
else stands for itself.
-/

namespace SvgDisplayList

namespace JsonString

/-- The lower-case hexadecimal digits of a number below 256, in a field of four. -/
def fourDigits (n : Nat) : List Char := ['0', '0', Nat.digitChar (n / 16), Nat.digitChar (n % 16)]

/-- A character as it stands in a string. -/
def escapeChar (c : Char) : List Char :=
  match c with
  | '\\' => ['\\', '\\']
  | '"' => ['\\', '"']
  | '\n' => ['\\', 'n']
  | '\r' => ['\\', 'r']
  | '\t' => ['\\', 't']
  | c => if c.toNat < 0x20 then '\\' :: 'u' :: fourDigits c.toNat else [c]

/-- A text as it stands between the quotes of a string. -/
def escape (s : String) : String := String.ofList (s.toList.flatMap escapeChar)

/-- A text as a JSON string. -/
def quote (s : String) : String := "\"" ++ escape s ++ "\""

/-- The fields of an object, their values written already. -/
def object (fields : List (String × String)) : String :=
  let field (f : String × String) : String := quote f.1 ++ ":" ++ f.2
  let rec list : List (String × String) → String
    | [] => ""
    | [f] => field f
    | f :: fs => field f ++ "," ++ list fs
  "\x7b" ++ list fields ++ "\x7d"

end JsonString

end SvgDisplayList
