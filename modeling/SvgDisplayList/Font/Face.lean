import SvgDisplayList.Font.Variation
import SvgDisplayList.Text.Utf16

/-!
# Faces in font files

A font file is a directory of tables.  Three tables have to be there and sound: the head, the
horizontal header and the maximum profile.  The tables of names, of the platform's metrics, of the
underline and of variations are optional, and a faulty one counts as missing.

A file may also be a collection of faces; then its first face is read.
-/

namespace SvgDisplayList

namespace Font

/-- A line that a font draws along its texts, in units of the font. -/
structure LineMeasure where
  position : Int
  thickness : Int
deriving DecidableEq, Repr

/-- A name that a face gives itself. -/
structure NameEntry where
  kind : Nat
  /-- The text of the name, if it is written in Unicode. -/
  text? : Option String
deriving DecidableEq, Repr

/-- What a font file tells about its first face. -/
structure Face where
  unitsPerEm : Nat
  ascender : Int
  descender : Int
  capHeight? : Option Int
  underline? : Option LineMeasure
  strikeout? : Option LineMeasure
  names : List NameEntry
deriving DecidableEq, Repr

/-! ### The directory -/

/-- Where a table lies in the file. -/
structure TableRecord where
  tag : List UInt8
  offset : Nat
  length : Nat

/-- The outlines that the first four bytes of a face announce. -/
inductive Magic where
  | face
  | collection
deriving DecidableEq

/-- What the first four bytes announce. -/
def magic? (file : List UInt8) (offset : Nat) : Option Magic :=
  match Bytes.long? file offset with
  | some 0x00010000 => some .face
  | some 0x74727565 => some .face
  | some 0x4f54544f => some .face
  | some 0x74746366 => some .collection
  | _ => none

/-- The offset of the directory of the first face, which follows its magic number.  A collection
lists the offsets of its faces, none of which may lie inside the list. -/
def directoryOffset? (file : List UInt8) : Option Nat := do
  match ← magic? file 0 with
  | .face => return 4
  | .collection =>
    let count ← Bytes.long? file 8
    let offsets ← Bytes.slice? file 12 (4 * count)
    let offset ← Bytes.long? offsets 0
    if offset < 12 + 4 * count || file.length < offset then none
    else
      match ← magic? file offset with
      | .face => return offset + 4
      | .collection => none

/-- The record at an offset. -/
def tableRecord? (file : List UInt8) (offset : Nat) : Option TableRecord := do
  let tag ← Bytes.slice? file offset 4
  let start ← Bytes.long? file (offset + 8)
  let length ← Bytes.long? file (offset + 12)
  return ⟨tag, start, length⟩

/-- The records of the directory. -/
def directory? (file : List UInt8) : Option (List TableRecord) := do
  let offset ← directoryOffset? file
  let count ← Bytes.word? file offset
  (List.range count).mapM fun i => tableRecord? file (offset + 8 + 16 * i)

/-- The table of a name, as its last record has it. -/
def table? (file : List UInt8) (records : List TableRecord) (tag : String) : Option (List UInt8) :=
  match (records.filter fun r => r.tag == tag.toUTF8.toList).getLast? with
  | some r => Bytes.slice? file r.offset r.length
  | none => none

/-! ### The tables that have to be there -/

/-- The number of units in an em. -/
def unitsPerEm? (head : List UInt8) : Option Nat := do
  if head.length < 54 then none
  let units ← Bytes.word? head 18
  let locationFormat ← Bytes.word? head 50
  if 16 ≤ units && units ≤ 16384 && locationFormat ≤ 1 then some units else none

/-- The ascender and the descender of the horizontal header. -/
def horizontalHeader? (hhea : List UInt8) : Option (Int × Int) := do
  if hhea.length < 36 then none
  return (← Bytes.signedWord? hhea 4, ← Bytes.signedWord? hhea 6)

/-- Whether the maximum profile is sound: of a known version, with at least one glyph. -/
def hasGlyphs (maxp : List UInt8) : Bool :=
  (Bytes.long? maxp 0 == some 0x00005000 || Bytes.long? maxp 0 == some 0x00010000) &&
    match Bytes.word? maxp 4 with
    | some n => n != 0
    | none => false

/-! ### The metrics of the platform -/

/-- The metrics that the platform asks fonts for. -/
structure PlatformMetrics where
  version : Nat
  /-- Whether the typographic measures replace those of the header. -/
  prefersTypographic : Bool
  strikeout : LineMeasure
  typographicAscender : Int
  typographicDescender : Int
  windowsAscender : Int
  windowsDescender : Int
  capHeight? : Option Int

/-- The least size of the table in a version. -/
def platformTableSize? : (version : Nat) → Option Nat
  | 0 => some 78
  | 1 => some 86
  | 2 => some 96
  | 3 => some 96
  | 4 => some 96
  | 5 => some 100
  | _ => none

/-- The metrics of the platform as the table has them. -/
def platformMetrics? (os2 : List UInt8) : Option PlatformMetrics := do
  let version ← Bytes.word? os2 0
  let size ← platformTableSize? version
  if os2.length < size then none
  let signed (offset : Nat) : Int := (Bytes.signedWord? os2 offset).getD 0
  let selection := (Bytes.word? os2 62).getD 0
  return {
    version
    prefersTypographic := 4 ≤ version && selection.testBit 7
    strikeout := ⟨signed 28, signed 26⟩
    typographicAscender := signed 68
    typographicDescender := signed 70
    windowsAscender := signed 74
    windowsDescender := -signed 76
    capHeight? := if version < 2 then none else some (signed 88) }

/-- A measure that the platform's metrics have in two ways, with the tags of their variations. -/
structure PlatformMeasure where
  typographic : PlatformMetrics → Int
  typographicTag : String
  windows : PlatformMetrics → Int
  windowsTag : String

def ascenderMeasure : PlatformMeasure :=
  ⟨(·.typographicAscender), "hasc", (·.windowsAscender), "hcla"⟩

def descenderMeasure : PlatformMeasure :=
  ⟨(·.typographicDescender), "hdsc", (·.windowsDescender), "hcld"⟩

/-- A measure of the header, unless the platform's metrics replace it.  A header that says zero
gives way to the typographic measure, and that one, if it is zero too, to the measure for windows.
Only the platform's measures vary. -/
def measure (variation? : Option MetricsVariation) (platform? : Option PlatformMetrics)
    (header : Int) (m : PlatformMeasure) : Int :=
  match platform? with
  | none => header
  | some p =>
    let typographic := varied variation? m.typographicTag (m.typographic p)
    if p.prefersTypographic then typographic
    else if header ≠ 0 then header
    else if m.typographic p ≠ 0 then typographic
    else varied variation? m.windowsTag (m.windows p)

/-- A line whose position and thickness vary under two tags. -/
def LineMeasure.varied (l : LineMeasure) (variation? : Option MetricsVariation)
    (position thickness : String) :
    LineMeasure :=
  ⟨Font.varied variation? position l.position, Font.varied variation? thickness l.thickness⟩

/-! ### The underline -/

/-- The versions of the table of the underline. -/
def underlineVersions : List Nat := [0x00010000, 0x00020000, 0x00025000, 0x00030000, 0x00040000]

/-- The underline as the table has it.  A table of the second version lists the names of the glyphs
as well, and has to be long enough for that. -/
def underlineMeasure? (post : List UInt8) : Option LineMeasure := do
  if post.length < 32 then none
  let version ← Bytes.long? post 0
  if !underlineVersions.contains version then none
  if version = 0x00020000 then
    let count ← Bytes.word? post 32
    let _ ← Bytes.slice? post 34 (2 * count)
  return ⟨← Bytes.signedWord? post 8, ← Bytes.signedWord? post 10⟩

/-! ### Names -/

/-- Whether a platform writes names in Unicode. -/
def isUnicode (platform encoding : Nat) : Bool := platform == 0 || platform == 3 && encoding ≤ 1

/-- The name whose record lies at an offset of a list of records. -/
def nameEntry? (records storage : List UInt8) (offset : Nat) : Option NameEntry := do
  let platform ← Bytes.word? records offset
  if 4 < platform then none
  let encoding ← Bytes.word? records (offset + 2)
  let kind ← Bytes.word? records (offset + 6)
  let length ← Bytes.word? records (offset + 8)
  let start ← Bytes.word? records (offset + 10)
  let bytes ← Bytes.slice? storage start length
  let text? :=
    if isUnicode platform encoding then
      (Text.Utf16.decode (Bytes.words bytes)).map String.ofList
    else none
  return ⟨kind, text?⟩

/-- The values of a list up to the first one that is missing. -/
def untilMissing {α : Type} : List (Option α) → List α
  | some a :: rest => a :: untilMissing rest
  | _ => []

/-- The offset of the first name record.  In its second version the table has a list of languages
before it. -/
def nameRecordsOffset? (name : List UInt8) : Option Nat := do
  match ← Bytes.word? name 0 with
  | 0 => return 6
  | 1 =>
    let languages ← Bytes.word? name 6
    if 0x10000 ≤ 4 * languages || name.length < 8 + 4 * languages then none
    else return 8 + 4 * languages
  | _ => none

/-- The names of the table, up to the first faulty record. -/
def nameEntries? (name : List UInt8) : Option (List NameEntry) := do
  let count ← Bytes.word? name 2
  let storageOffset ← Bytes.word? name 4
  let offset ← nameRecordsOffset? name
  let records ← Bytes.slice? name offset (12 * count)
  let storage ← Bytes.tail? name (max storageOffset (offset + 12 * count))
  return untilMissing ((List.range count).map fun i => nameEntry? records storage (12 * i))

/-! ### The face -/

/-- The first face of a font file. -/
def Face.ofFile? (file : List UInt8) : Option Face := do
  let records ← directory? file
  let table (tag : String) : Option (List UInt8) := table? file records tag
  let unitsPerEm ← (table "head").bind unitsPerEm?
  let (ascender, descender) ← (table "hhea").bind horizontalHeader?
  let maxp ← table "maxp"
  if !hasGlyphs maxp then none
  let platform? := (table "OS/2").bind platformMetrics?
  let variation? := do
    let axes ← axisCount? (← table "fvar")
    MetricsVariation.ofTable? axes (← table "MVAR")
  return {
    unitsPerEm
    ascender := measure variation? platform? ascender ascenderMeasure
    descender := measure variation? platform? descender descenderMeasure
    capHeight? := (platform?.bind (·.capHeight?)).map (varied variation? "cpht")
    underline? := ((table "post").bind underlineMeasure?).map (·.varied variation? "undo" "unds")
    strikeout? := platform?.map (·.strikeout.varied variation? "stro" "strs")
    names := ((table "name").bind nameEntries?).getD [] }

end Font

end SvgDisplayList
