import SvgDisplayList.Xml.Builder

/-!
# Reading documents

Character data and attribute values are read through references: a character reference stands for
itself, and a named entity for its replacement text.  In an attribute value the replacement text is
more of the value; in content it is read as markup, and may even close the element it stands in.

Entities nest.  At most ten replacement texts may be open at a time, and at most 255 references may
occur inside the replacement texts of one reference.  The readers are therefore built from the
inside out: `Content.read n` may open `n` more levels, and hands every replacement text to
`Content.read (n - 1)`.
-/

namespace SvgDisplayList

namespace Xml

/-- How many replacement texts may be open at a time. -/
def entityDepth : Nat := 10

/-- How many references the replacement texts of one reference may hold together. -/
def referenceLimit : Nat := 255

/-- The first entity of a name. -/
def findEntity? (entities : List Entity) (name : String) : Option Entity :=
  entities.find? (·.name == name)

/-- One more reference, counted only inside of a replacement text. -/
def countReference (levels references : Nat) (at_ : Position) : Except XmlError Nat :=
  if levels = entityDepth then .ok references
  else if references = referenceLimit then .error (.entityLoop at_)
  else .ok (references + 1)

/-! ### Attribute values -/

namespace Value

/-- A character of an attribute value: every kind of line end and tab is a blank, and a line end of
two characters is one. -/
def normalized (ch : Char) (next? : Option Char) : List Char :=
  if ch = '\r' ∧ next? = some '\n' then []
  else if ch = '\n' ∨ ch = '\r' ∨ ch = '\t' then [' ']
  else [ch]

/-- Reads a value, with `expand` for the replacement texts in it.  `levels` more replacement texts
may be open. -/
def readWith (levels : Nat) (entities : List Entity)
    (expand : Position → Cursor → Nat → Except XmlError (List Char × Nat)) :
    (turns : Nat) → Cursor → (references : Nat) → Except XmlError (List Char × Nat)
  | 0, _, references => .ok ([], references)
  | turns + 1, c, references =>
    match c.rest with
    | [] => .ok ([], references)
    | '&' :: r =>
      match Reference.scan? ⟨c.position.after '&', r⟩ with
      | none => .error (.malformedReference c.position)
      | some (.character ch, behind) =>
        if levels < entityDepth && ch == '<' then .error (.unescapedLess c.position)
        else do
          let here := if levels < entityDepth then normalized ch none else [ch]
          let (text, references) ← readWith levels entities expand turns behind references
          return (here ++ text, references)
      | some (.entity name, behind) =>
        match findEntity? entities name with
        | none => .error (.unknownEntity name c.position)
        | some e => do
          let references ← countReference levels references behind.position
          let (here, references) ← expand behind.position e.value references
          let references := if levels = entityDepth then 0 else references
          let (text, references) ← readWith levels entities expand turns behind references
          return (here ++ text, references)
    | ch :: r => do
      let (text, references) ←
        readWith levels entities expand turns ⟨c.position.after ch, r⟩ references
      return (normalized ch r.head? ++ text, references)

/-- Reads a value in which `levels` more replacement texts may be open. -/
def read (entities : List Entity) :
    (levels : Nat) → Cursor → Nat → Except XmlError (List Char × Nat)
  | 0, c, references =>
    readWith 0 entities (fun at_ _ _ => .error (.entityLoop at_)) (c.rest.length + 1) c references
  | n + 1, c, references =>
    readWith (n + 1) entities (fun _ => read entities n) (c.rest.length + 1) c references

end Value

/-! ### Tags -/

/-- How a tag ends. -/
inductive TagEnd where
  | opens
  | empty

/-- The rest of a tag behind its name.  A tag that the text breaks off has no end. -/
def readAttributes (entities : List Entity) (levels : Nat) :
    (turns : Nat) → Builder → Cursor → Except XmlError (Option TagEnd × Builder × Cursor)
  | 0, b, c => .ok (none, b, c)
  | turns + 1, b, c =>
    match c.rest with
    | [] => .ok (none, b, c)
    | first :: _ =>
      let at_ := c.skipSpaces
      match at_.rest with
      | [] => .error .unexpectedEnd
      | '/' :: r => do
        let c ← Scan.char '>' ⟨at_.position.after '/', r⟩
        return (some .empty, b, c)
      | '>' :: r => .ok (some .opens, b, ⟨at_.position.after '>', r⟩)
      | ch :: _ =>
        if !isSpace first then .error (.expectedKind "a whitespace" ch at_.position)
        else do
          let ((space, name, value), c) ← Scan.attributeText at_
          let (text, references) ← Value.read entities levels value b.references
          let b ← b.addAttribute space name (String.ofList text) at_.position
          readAttributes entities levels turns { b with references } c

/-! ### Content -/

/-- Character data while it is collected, in reverse. -/
structure TextBuffer where
  characters : List Char
  /-- Whether the character before came from a reference, so that the next one is taken as it is. -/
  verbatim : Bool

namespace TextBuffer

def empty : TextBuffer := ⟨[], false⟩

/-- Adds a character as it is. -/
def pushRaw (t : TextBuffer) (ch : Char) : TextBuffer := { t with characters := ch :: t.characters }

/-- Adds a character of the text: line ends of every kind become a single line feed. -/
def push (t : TextBuffer) (ch : Char) (last : Bool) : TextBuffer :=
  let characters :=
    match t.characters with
    | '\r' :: r =>
      if last && ch == '\r' then '\n' :: '\n' :: r
      else if ch != '\n' then ch :: '\n' :: r
      else '\n' :: r
    | r => if last && ch == '\r' then '\n' :: r else ch :: r
  { t with characters }

/-- The collected text. -/
def text (t : TextBuffer) : List Char := t.characters.reverse

end TextBuffer

/-- Adds the text between two tags to the tree, with `expand` for the replacement texts in it. -/
def readText (levels : Nat) (entities : List Entity)
    (expand : Position → Cursor → Builder → Except XmlError Builder) :
    (turns : Nat) → TextBuffer → Builder → Cursor → Except XmlError Builder
  | 0, t, b, _ => .ok (b.appendText t.text)
  | turns + 1, t, b, c =>
    match c.rest with
    | [] => .ok (b.appendText t.text)
    | '&' :: r =>
      match Reference.scan? ⟨c.position.after '&', r⟩ with
      | none => .error (.malformedReference c.position)
      | some (.character ch, behind) =>
        let t : TextBuffer :=
          if levels < entityDepth then t.push ch behind.rest.isEmpty
          else { t.pushRaw ch with verbatim := true }
        readText levels entities expand turns t b behind
      | some (.entity name, behind) =>
        match findEntity? entities name with
        | none => .error (.unknownEntity name c.position)
        | some e => do
          let b := b.appendText t.text
          let references ← countReference levels b.references behind.position
          let inner ← expand behind.position e.value { b with references, tagSeen := false }
          let references := if levels = entityDepth then 0 else inner.references
          let b := { inner with references, tagSeen := b.tagSeen }
          readText levels entities expand turns .empty b behind
    | ch :: r =>
      let t := if t.verbatim then { t.pushRaw ch with verbatim := false } else t.push ch r.isEmpty
      readText levels entities expand turns t b ⟨c.position.after ch, r⟩

namespace Content

/-- Reads content until the element that it stands in is closed, `depth` counting that element and
those opened since, or until the text ends. -/
def readWith (levels : Nat) (entities : List Entity)
    (expand : Position → Cursor → Builder → Except XmlError Builder) :
    (turns depth : Nat) → Builder → Cursor → Except XmlError (Builder × Cursor)
  | 0, _, b, c => .ok (b, c)
  | _, 0, b, c => .ok (b, c)
  | turns + 1, depth + 1, b, c =>
    match c.rest with
    | [] => .ok (b, c)
    | ['<'] => .error (.unknownToken c.position)
    | '<' :: '!' :: _ =>
      if c.startsWith "<!--" then do
        let c ← Scan.comment c
        readWith levels entities expand turns (depth + 1) b c
      else if c.startsWith "<![CDATA[" then do
        let (text, c) ← Scan.textBefore "]]>" (c.advance 9)
        let c ← Scan.word "]]>" c
        let plain :=
          (text.foldl (fun (p : TextBuffer × Nat) ch => (p.1.push ch (p.2 == 1), p.2 - 1))
          (TextBuffer.empty, text.length)).1
        readWith levels entities expand turns (depth + 1) (b.appendText plain.text) c
      else .error (.unknownToken c.position)
    | '<' :: '?' :: _ => do
      let c ← Scan.instruction c
      readWith levels entities expand turns (depth + 1) b c
    | '<' :: '/' :: _ => do
      let start := c.position
      let ((space, name), c) ← Scan.qualifiedName (c.advance 2)
      let c ← Scan.char '>' c.skipSpaces
      let b ← b.closeTag space name start
      readWith levels entities expand turns depth b c
    | '<' :: _ => do
      let start := c.position
      let ((space, name), c) ← Scan.qualifiedName (c.advance 1)
      if space == "xmlns" then .error (.xmlnsPrefixUsed (start.after '<'))
      else
        let tag : TagName := ⟨space, name, start⟩
        let (end?, b, c) ←
          readAttributes entities levels (c.rest.length + 1) { b with tagSeen := true } c
        match end? with
        | none => return (b, c)
        | some .empty =>
          let b ← b.emptyTag tag
          readWith levels entities expand turns (depth + 1) b c
        | some .opens =>
          let b ← b.openTag tag
          readWith levels entities expand turns (depth + 2) b c
    | _ => do
      let (text, behind) ← Scan.textUntil (fun cs => cs.head? == some '<') c
      if occurs [']', ']', '>'] text then .error (.invalidCharacterData behind.position)
      else
        let b ← readText levels entities expand (text.length + 1) .empty b (c.restrict text)
        readWith levels entities expand turns (depth + 1) b behind

/-- Reads content in which `levels` more replacement texts may be open. -/
def read (entities : List Entity) :
    (levels depth : Nat) → Builder → Cursor → Except XmlError (Builder × Cursor)
  | 0, depth, b, c =>
    readWith 0 entities (fun at_ _ _ => .error (.entityLoop at_)) (c.rest.length + 1) depth b c
  | n + 1, depth, b, c =>
    let expand (_ : Position) (value : Cursor) (b : Builder) : Except XmlError Builder :=
      (read entities n 1 b value).map (·.1)
    readWith (n + 1) entities expand (c.rest.length + 1) depth b c

end Content

/-! ### Documents -/

namespace Document

/-- The cursor behind a byte order mark. -/
def skipMark (c : Cursor) : Cursor :=
  match c.rest with
  | ch :: _ => if ch.toNat = 0xfeff then c.advance 1 else c
  | [] => c

/-- The root element, at its opening bracket.  Its tag decides whether there is content to read. -/
def readRoot (entities : List Entity) (c : Cursor) : Except XmlError (Builder × Cursor) := do
  let start := c.position
  let ((space, name), c) ← Scan.qualifiedName (c.advance 1)
  if space == "xmlns" then .error (.xmlnsPrefixUsed (start.after '<'))
  else
    let tag : TagName := ⟨space, name, start⟩
    let b : Builder := { Builder.empty with tagSeen := true }
    let (end?, b, c) ← readAttributes entities entityDepth (c.rest.length + 1) b c
    match end? with
    | none => return (b, c)
    | some .empty => return (← b.emptyTag tag, c)
    | some .opens => Content.read entities entityDepth 1 (← b.openTag tag) c

/-- The number of turns that suffices for what stands around the root element. -/
def miscTurns (c : Cursor) : Nat := c.rest.length + 1

/-- Reads a document. -/
def ofChars (cs : List Char) : Except XmlError Document := do
  let c := skipMark ⟨.first, cs⟩
  let c ← if c.startsWith "<?xml " then Scan.declaration c else pure c
  let c ← Scan.misc (miscTurns c) c
  let (entities, c) ←
    if c.skipSpaces.startsWith "<!DOCTYPE" then do
      let (entities, c) ← Scan.doctype c.skipSpaces
      let c ← Scan.misc (miscTurns c) c
      pure (entities, c)
    else pure ([], c)
  let c := c.skipSpaces
  let (b, c) ← if c.startsWith "<" then readRoot entities c else pure (Builder.empty, c)
  let c ← Scan.misc (miscTurns c) c
  match c.rest with
  | _ :: _ => .error (.unknownToken c.position)
  | [] =>
    -- the elements outside of all others, first to last; an open one hides those inside it
    match b.finished.reverse, b.opened with
    | [], [] => .error .noRoot
    | _, _ :: _ => .error .unclosedRoot
    | root :: beside, [] => return ⟨root, beside⟩

/-- Reads a document. -/
def ofText (s : String) : Except XmlError Document := ofChars s.toList

end Document

end Xml

end SvgDisplayList
