import SvgDisplayList.Text.Glyph

/-!
# Quoted values

A message that cites an attribute value puts it between double quotes, so that blanks and invisible
characters can be seen.  The quote, the backslash and the usual controls have escapes of two
characters; any other character that would not show is written as its code point, `\u{…}` with the
fewest hexadecimal digits.
-/

namespace SvgDisplayList

namespace Text

/-- A number in lower-case hexadecimal. -/
def hex (n : Nat) : List Char := Nat.toDigits 16 n

/-- A character as its code point. -/
def codePointEscape (c : Char) : List Char := '\\' :: 'u' :: '\x7b' :: (hex c.toNat ++ ['\x7d'])

/-- A character as it stands in a quoted value. -/
def quotedChar (c : Char) : List Char :=
  match c with
  | '\x00' => ['\\', '0']
  | '\t' => ['\\', 't']
  | '\n' => ['\\', 'n']
  | '\r' => ['\\', 'r']
  | '"' => ['\\', '"']
  | '\\' => ['\\', '\\']
  | c => if isCombining c || isInvisible c then codePointEscape c else [c]

/-- A value between quotes. -/
def quoted (s : String) : String :=
  String.ofList ('"' :: (s.toList.flatMap quotedChar ++ ['"']))

end Text

end SvgDisplayList
