import SvgDisplayList.Xml.Error

/-!
# Scanning markup

A cursor is a place in a document and the text ahead of it.  An entity's replacement text is scanned
by a cursor of its own, which still counts rows and columns of the document, but ends where the
replacement text ends.

`Scan` reads from a cursor: it fails with the first fault, or gives a value and the cursor behind
what it has read.
-/

namespace SvgDisplayList

namespace Xml

/-! ### Character classes -/

/-- White space of markup. -/
def isSpace (c : Char) : Bool := c == ' ' || c == '\t' || c == '\n' || c == '\r'

/-- A character that a document may contain. -/
def isAllowed (c : Char) : Bool :=
  if c.toNat < 0x20 then isSpace c else c.toNat != 0xfffe && c.toNat != 0xffff

/-- The letters beyond ASCII that a name may start with. -/
def isNameLetter (n : Nat) : Bool :=
  (0xc0 ≤ n && n ≤ 0xd6) || (0xd8 ≤ n && n ≤ 0xf6) || (0xf8 ≤ n && n ≤ 0x2ff) ||
    (0x370 ≤ n && n ≤ 0x37d) || (0x37f ≤ n && n ≤ 0x1fff) || (0x200c ≤ n && n ≤ 0x200d) ||
    (0x2070 ≤ n && n ≤ 0x218f) || (0x2c00 ≤ n && n ≤ 0x2fef) || (0x3001 ≤ n && n ≤ 0xd7ff) ||
    (0xf900 ≤ n && n ≤ 0xfdcf) || (0xfdf0 ≤ n && n ≤ 0xfffd) || (0x10000 ≤ n && n ≤ 0xeffff)

/-- What a name starts with. -/
def isNameStart (c : Char) : Bool :=
  if c.toNat ≤ 128 then c.isAlpha || c == ':' || c == '_' else isNameLetter c.toNat

/-- What a name goes on with. -/
def isNameChar (c : Char) : Bool :=
  if c.toNat ≤ 128 then c.isAlphanum || c == ':' || c == '_' || c == '-' || c == '.'
  else
    isNameLetter c.toNat || c.toNat == 0xb7 || (0x300 ≤ c.toNat && c.toNat ≤ 0x36f) ||
      (0x203f ≤ c.toNat && c.toNat ≤ 0x2040)

/-! ### Cursors -/

/-- A place in a document and the text ahead of it. -/
structure Cursor where
  position : Position
  rest : List Char

namespace Cursor

/-- Whether the text goes on with a word. -/
def startsWith (c : Cursor) (word : String) : Bool := word.toList.isPrefixOf c.rest

/-- The cursor `n` characters further on. -/
def advance : Nat → Cursor → Cursor
  | 0, c => c
  | n + 1, ⟨p, ch :: r⟩ => advance n ⟨p.after ch, r⟩
  | _ + 1, ⟨p, []⟩ => ⟨p, []⟩

/-- The longest run of characters of a class, and the cursor behind it. -/
def spanFrom (p : Char → Bool) (position : Position) : List Char → List Char × Cursor
  | [] => ([], ⟨position, []⟩)
  | ch :: r =>
    if p ch then
      let (run, c) := spanFrom p (position.after ch) r
      (ch :: run, c)
    else ([], ⟨position, ch :: r⟩)

/-- The longest run of characters of a class at a cursor. -/
def span (p : Char → Bool) (c : Cursor) : List Char × Cursor := spanFrom p c.position c.rest

/-- The cursor behind white space. -/
def skipSpaces (c : Cursor) : Cursor := (c.span isSpace).2

/-- A cursor over the given text only, which starts where this one does. -/
def restrict (c : Cursor) (text : List Char) : Cursor := ⟨c.position, text⟩

end Cursor

/-- What stands before the first colon of a name, if it has one, and what stands behind. -/
def splitColon : List Char → Option (List Char) × List Char
  | [] => (none, [])
  | ch :: r =>
    if ch = ':' then (some [], r)
    else
      match splitColon r with
      | (some space, name) => (some (ch :: space), name)
      | (none, name) => (none, ch :: name)

/-- A reader of markup. -/
abbrev Scan (α : Type) := Cursor → Except XmlError (α × Cursor)

namespace Scan

/-- The next character; the end of the text is a fault. -/
def peek (c : Cursor) : Except XmlError Char :=
  match c.rest with
  | ch :: _ => .ok ch
  | [] => .error .unexpectedEnd

/-- A given character. -/
def char (expected : Char) (c : Cursor) : Except XmlError Cursor :=
  match c.rest with
  | [] => .error .unexpectedEnd
  | ch :: r =>
    if ch = expected then .ok ⟨c.position.after ch, r⟩
    else .error (.expectedByte expected ch c.position)

/-- A given word. -/
def word (expected : String) (c : Cursor) : Except XmlError Cursor :=
  if c.startsWith expected then .ok (c.advance expected.length)
  else .error (.expectedString expected c.position)

/-- White space that must be there. -/
def spaces (c : Cursor) : Except XmlError Cursor :=
  match c.rest with
  | [] => .error .unexpectedEnd
  | ch :: _ =>
    if isSpace ch then .ok c.skipSpaces else .error (.expectedKind "a whitespace" ch c.position)

/-- The text before the first place that a test accepts, or all of it.  Every character of it has to
be one that a document may contain, and so has the one behind it. -/
def untilFrom (stop : List Char → Bool) (position : Position) :
    List Char → Except XmlError (List Char × Cursor)
  | [] => .ok ([], ⟨position, []⟩)
  | ch :: r =>
    if !isAllowed ch then .error (.nonXmlCharacter ch position)
    else if stop (ch :: r) then .ok ([], ⟨position, ch :: r⟩)
    else
      match untilFrom stop (position.after ch) r with
      | .ok (run, c) => .ok (ch :: run, c)
      | .error e => .error e

/-- The text before a place that a test accepts. -/
def textUntil (stop : List Char → Bool) : Scan (List Char) :=
  fun c => untilFrom stop c.position c.rest

/-- The text before a word, or all of it. -/
def textBefore (ending : String) : Scan (List Char) :=
  textUntil fun cs => ending.toList.isPrefixOf cs

/-- A name. -/
def name : Scan String := fun c =>
  match c.rest with
  | [] => .error (.invalidName c.position)
  | ch :: _ =>
    if isNameStart ch then
      let (run, c') := c.span isNameChar
      .ok (String.ofList run, c')
    else .error (.invalidName c.position)

/-- A name with the prefix before its colon; an empty prefix is none. -/
def qualifiedName : Scan (String × String) := fun c =>
  let (run, c') := c.span isNameChar
  let starts (cs : List Char) : Bool := match cs with
    | ch :: _ => isNameStart ch
    | [] => false
  match splitColon run with
  | (none, name) =>
    if starts name then .ok (("", String.ofList name), c') else .error (.invalidName c.position)
  | (some space, name) =>
    if name.contains ':' || !(space.isEmpty || starts space) || !starts name then
      .error (.invalidName c.position)
    else .ok ((String.ofList space, String.ofList name), c')

/-- An opening quote. -/
def quote : Scan Char := fun c =>
  match c.rest with
  | [] => .error .unexpectedEnd
  | ch :: r =>
    if ch = '"' ∨ ch = '\'' then .ok (ch, ⟨c.position.after ch, r⟩)
    else .error (.expectedKind "a quote" ch c.position)

/-- A literal between quotes, with a cursor over its text. -/
def literal : Scan Cursor := fun c => do
  let (q, c) ← quote c
  let (run, behind) := c.span (· != q)
  let behind ← char q behind
  return (c.restrict run, behind)

/-- An attribute as written: prefix, name and a cursor over its value, which holds no `<`. -/
def attributeText : Scan (String × String × Cursor) := fun c => do
  let ((space, name), c) ← qualifiedName c
  let c ← char '=' c.skipSpaces
  let (q, c) ← quote c.skipSpaces
  let (run, behind) ← textUntil (fun cs => cs.head? == some q || cs.head? == some '<') c
  let behind ← char q behind
  return ((space, name, c.restrict run), behind)

end Scan

/-! ### References -/

/-- What a reference stands for. -/
inductive Reference where
  | character (c : Char)
  | entity (name : String)

namespace Reference

/-- The character of a code point; one that no character has becomes the replacement character. -/
def ofCodePoint (n : Nat) : Char :=
  if n < 0xd800 ∨ (0xdfff < n ∧ n ≤ 0x10ffff) then Char.ofNat n else Char.ofNat 0xfffd

/-- The value of a run of digits. -/
def numeral (radix : Nat) (ds : List Char) : Nat :=
  ds.foldl (fun n d =>
    radix * n + (if d.isDigit then d.toNat - 48 else d.toLower.toNat - 87)) 0

/-- A digit of hexadecimal notation. -/
def isHexDigit (c : Char) : Bool := c.isDigit || ('a' ≤ c && c ≤ 'f') || ('A' ≤ c && c ≤ 'F')

/-- The character that a run of digits names. -/
def ofDigits? (radix : Nat) (ds : List Char) : Option Reference :=
  let n := numeral radix ds
  if ds.isEmpty || 0x100000000 ≤ n then none
  else
    let c := ofCodePoint n
    if isAllowed c then some (.character c) else none

/-- What a name refers to. -/
def ofName : String → Reference
  | "quot" => .character '"'
  | "amp" => .character '&'
  | "apos" => .character '\''
  | "lt" => .character '<'
  | "gt" => .character '>'
  | name => .entity name

/-- The reference at a cursor that stands behind an ampersand. -/
def scan? (c : Cursor) : Option (Reference × Cursor) :=
  let found : Option (Reference × Cursor) :=
    match c.rest with
    | '#' :: 'x' :: _ =>
      let (ds, c) := (c.advance 2).span isHexDigit
      (ofDigits? 16 ds).map fun r => (r, c)
    | '#' :: _ =>
      let (ds, c) := (c.advance 1).span Char.isDigit
      (ofDigits? 10 ds).map fun r => (r, c)
    | _ =>
      match Scan.name c with
      | .ok (name, c) => some (ofName name, c)
      | .error _ => none
  match found with
  | some (r, ⟨p, ';' :: rest⟩) => some (r, ⟨p.after ';', rest⟩)
  | _ => none

end Reference

end Xml

end SvgDisplayList
