import SvgDisplayList.Text.Quoted

/-!
# Errors of XML reading

A document that is not well formed is refused with the first fault found, at the row and column
where it was found.  Rows and columns count from one; a column is a character, not a byte.
-/

namespace SvgDisplayList

namespace Xml

/-- A place in a document, as people count it. -/
structure Position where
  row : Nat
  column : Nat
deriving DecidableEq, Repr

namespace Position

def first : Position := ⟨1, 1⟩

/-- The place behind a character. -/
def after (p : Position) (c : Char) : Position :=
  if c = '\n' then ⟨p.row + 1, 1⟩ else ⟨p.row, p.column + 1⟩

def text (p : Position) : String := toString p.row ++ ":" ++ toString p.column

end Position

end Xml

/-- Why a document is not well formed. -/
inductive XmlError where
  | xmlPrefixRebound (at_ : Xml.Position)
  | xmlUriMisused (at_ : Xml.Position)
  | xmlnsUriDeclared (at_ : Xml.Position)
  | xmlnsPrefixUsed (at_ : Xml.Position)
  | duplicateNamespace (name : String) (at_ : Xml.Position)
  | unknownNamespace (name : String) (at_ : Xml.Position)
  | closeTagMismatch (expected actual : String) (at_ : Xml.Position)
  | strayCloseTag (at_ : Xml.Position)
  | unknownEntity (name : String) (at_ : Xml.Position)
  | malformedReference (at_ : Xml.Position)
  | entityLoop (at_ : Xml.Position)
  | unescapedLess (at_ : Xml.Position)
  | duplicateAttribute (name : String) (at_ : Xml.Position)
  | noRoot
  | unclosedRoot
  | unexpectedDeclaration (at_ : Xml.Position)
  | invalidName (at_ : Xml.Position)
  | nonXmlCharacter (c : Char) (at_ : Xml.Position)
  | expectedByte (expected actual : Char) (at_ : Xml.Position)
  | expectedKind (expected : String) (actual : Char) (at_ : Xml.Position)
  | expectedString (expected : String) (at_ : Xml.Position)
  | invalidExternalId (at_ : Xml.Position)
  | invalidComment (at_ : Xml.Position)
  | invalidCharacterData (at_ : Xml.Position)
  | unknownToken (at_ : Xml.Position)
  | unexpectedEnd
deriving DecidableEq, Repr

namespace XmlError

/-- A character as an error message shows it: by its first byte, as most faults are found at the
byte level. -/
def shownByte (c : Char) : Char :=
  let n := c.toNat
  if n < 0x80 then c
  else if n < 0x800 then Char.ofNat (0xc0 + n / 0x40)
  else if n < 0x10000 then Char.ofNat (0xe0 + n / 0x1000)
  else Char.ofNat (0xf0 + n / 0x40000)

/-- A character between single quotes, with an escape for what does not show. -/
def shownChar (c : Char) : String :=
  String.ofList ('\'' :: (Text.quotedChar c ++ ['\'']))

def message : XmlError → String
  | xmlPrefixRebound p => "'xml' namespace prefix mapped to wrong URI at " ++ p.text
  | xmlUriMisused p => "the 'xml' namespace URI is used for not 'xml' prefix at " ++ p.text
  | xmlnsUriDeclared p => "the 'xmlns' URI is used at " ++ p.text ++ ", but it must not be declared"
  | xmlnsPrefixUsed p => "the 'xmlns' prefix is used at " ++ p.text ++ ", but it must not be"
  | duplicateNamespace name p => "namespace '" ++ name ++ "' at " ++ p.text ++ " is already defined"
  | unknownNamespace name p => "an unknown namespace prefix '" ++ name ++ "' at " ++ p.text
  | closeTagMismatch expected actual p =>
    "expected '" ++ expected ++ "' tag, not '" ++ actual ++ "' at " ++ p.text
  | strayCloseTag p => "unexpected close tag at " ++ p.text
  | unknownEntity name p => "unknown entity reference '" ++ name ++ "' at " ++ p.text
  | malformedReference p => "malformed entity reference at " ++ p.text
  | entityLoop p => "a possible entity reference loop is detected at " ++ p.text
  | unescapedLess p => "unescaped '<' found at " ++ p.text
  | duplicateAttribute name p => "attribute '" ++ name ++ "' at " ++ p.text ++ " is already defined"
  | noRoot => "the document does not have a root node"
  | unclosedRoot => "the root node was opened but never closed"
  | unexpectedDeclaration p => "unexpected XML declaration at " ++ p.text
  | invalidName p => "invalid name token at " ++ p.text
  | nonXmlCharacter c p => "a non-XML character " ++ shownChar c ++ " found at " ++ p.text
  | expectedByte expected actual p =>
    "expected '" ++ expected.toString ++ "' not '" ++ (shownByte actual).toString ++ "' at " ++
      p.text
  | expectedKind expected actual p =>
    "expected " ++ expected ++ " not '" ++ (shownByte actual).toString ++ "' at " ++ p.text
  | expectedString expected p => "expected '" ++ expected ++ "' at " ++ p.text
  | invalidExternalId p => "invalid ExternalID at " ++ p.text
  | invalidComment p => "comment at " ++ p.text ++ " contains '--'"
  | invalidCharacterData p => "']]>' at " ++ p.text ++ " is not allowed inside a character data"
  | unknownToken p => "unknown token at " ++ p.text
  | unexpectedEnd => "unexpected end of stream"

end XmlError

end SvgDisplayList
