import SvgDisplayList.Xml.Scanner

/-!
# What stands around the root element

Comments and processing instructions, the XML declaration and the document type.  None of it reaches
the document tree; of the document type only the entities are kept, each as a cursor over its
replacement text.
-/

namespace SvgDisplayList

namespace Xml

/-- A named replacement text. -/
structure Entity where
  name : String
  value : Cursor

/-- Whether a word occurs in a text. -/
def occurs (word : List Char) : List Char → Bool
  | [] => word.isEmpty
  | c :: r => word.isPrefixOf (c :: r) || occurs word r

namespace Scan

/-- A comment, at its opening bracket. -/
def comment (c : Cursor) : Except XmlError Cursor := do
  let (text, behind) ← textBefore "-->" (c.advance 4)
  let behind ← word "-->" behind
  if occurs ['-', '-'] text || text.getLast? == some '-' then .error (.invalidComment c.position)
  else return behind

/-- A processing instruction, at its opening bracket. -/
def instruction (c : Cursor) : Except XmlError Cursor := do
  if c.startsWith "<?xml " then .error (.unexpectedDeclaration c.position)
  else
    let (_, c) ← name (c.advance 2)
    let (_, c) ← textBefore "?>" c.skipSpaces
    word "?>" c

/-- Comments and processing instructions.  Each of them is longer than one character, so the length
of the text bounds their number. -/
def misc : (turns : Nat) → Cursor → Except XmlError Cursor
  | 0, c => .ok c
  | turns + 1, c =>
    let c := c.skipSpaces
    if c.startsWith "<!--" then
      match comment c with
      | .ok c => misc turns c
      | .error e => .error e
    else if c.startsWith "<?" then
      match instruction c with
      | .ok c => misc turns c
      | .error e => .error e
    else .ok c

/-- White space between the parts of the XML declaration; only its end may follow without. -/
def declarationSpace (c : Cursor) : Except XmlError Cursor :=
  match c.rest with
  | [] => .ok c
  | ch :: _ =>
    if isSpace ch then .ok c.skipSpaces
    else if c.startsWith "?>" then .ok c
    else .error (.expectedKind "a whitespace" ch c.position)

/-- The XML declaration, at its opening bracket: a version, then perhaps an encoding and a
standalone flag. -/
def declaration (c : Cursor) : Except XmlError Cursor := do
  let c ← declarationSpace (c.advance 5)
  if !c.startsWith "version" then .error (.expectedString "version" c.position)
  else
    let (_, c) ← attributeText c
    let c ← declarationSpace c
    let c ← if c.startsWith "encoding" then do
        let (_, c) ← attributeText c
        declarationSpace c
      else pure c
    let c ← if c.startsWith "standalone" then do
        let (_, c) ← attributeText c
        pure c
      else pure c
    word "?>" c.skipSpaces

/-! ### The document type -/

/-- An external identifier, if one stands at the cursor. -/
def externalId (c : Cursor) : Except XmlError (Bool × Cursor) := do
  let isPublic := c.startsWith "PUBLIC"
  if !isPublic && !c.startsWith "SYSTEM" then return (false, c)
  else
    let c ← spaces (c.advance 6)
    let (_, c) ← literal c
    if isPublic then
      let c ← spaces c
      let (_, c) ← literal c
      return (true, c)
    else return (true, c)

/-- The definition of an entity: its replacement text, or nothing for an external one. -/
def entityDefinition (general : Bool) : Scan (Option Cursor) := fun c => do
  let ch ← peek c
  if ch = '"' ∨ ch = '\'' then
    let (value, c) ← literal c
    return (some value, c)
  else if ch = 'S' ∨ ch = 'P' then
    let (found, c) ← externalId c
    if !found then .error (.invalidExternalId c.position)
    else
      let c := if general then c.skipSpaces else c
      if general && c.startsWith "NDATA" then
        let c ← spaces (c.advance 5)
        -- a missing name at the end of the text is found by what has to follow it
        if c.rest.isEmpty then return (none, c)
        else
          let (_, c) ← name c
          return (none, c)
      else return (none, c)
  else .error (.expectedKind "a quote, SYSTEM or PUBLIC" ch c.position)

/-- An entity declaration, at its opening bracket. -/
def entity : Scan (Option Entity) := fun c => do
  let c ← spaces (c.advance 8)
  let general := !c.startsWith "%"
  let c ← if general then pure c else spaces (c.advance 1)
  let (name, c) ← name c
  let c ← spaces c
  let (value, c) ← entityDefinition general c
  let c ← char '>' c.skipSpaces
  return (value.map fun v => ⟨name, v⟩, c)

/-- The internal subset of the document type that starts at `start`, up to its closing bracket. -/
def subset (start : Position) : (turns : Nat) → List Entity → Scan (List Entity)
  | 0, found, c => .ok (found, c)
  | turns + 1, found, c =>
    if c.rest.isEmpty then .ok (found, c)
    else
      let c := c.skipSpaces
      if c.startsWith "<!ENTITY" then
        match entity c with
        | .ok (e?, c) => subset start turns (found ++ e?.toList) c
        | .error e => .error e
      else if c.startsWith "<!--" then
        match comment c with
        | .ok c => subset start turns found c
        | .error e => .error e
      else if c.startsWith "<?" then
        match instruction c with
        | .ok c => subset start turns found c
        | .error e => .error e
      else if c.startsWith "]" then
        match char '>' (c.advance 1).skipSpaces with
        | .ok c => .ok (found, c)
        | .error e => .error e
      else if c.startsWith "<!ELEMENT" || c.startsWith "<!ATTLIST" || c.startsWith "<!NOTATION" then
        match char '>' (c.span (· != '>')).2 with
        | .ok c => subset start turns found c
        | .error _ => .error (.unknownToken start)
      else .error (.unknownToken c.position)

/-- The document type, at its opening bracket. -/
def doctype : Scan (List Entity) := fun c => do
  let start := c.position
  let c ← spaces (c.advance 9)
  let c ← if c.rest.isEmpty then pure c else do
    let (_, c) ← name c
    pure c
  let (_, c) ← externalId c.skipSpaces
  let c := c.skipSpaces
  let ch ← peek c
  if ch = '>' then return ([], c.advance 1)
  else if ch = '[' then subset start (c.rest.length + 1) [] (c.advance 1)
  else .error (.expectedKind "'[' or '>'" ch c.position)

end Scan

end Xml

end SvgDisplayList
