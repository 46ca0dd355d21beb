import SvgDisplayList.Codec.Bytes
import SvgDisplayList.Codec.Huffman
import SvgDisplayList.Image.JpegError

/-!
# Segments of JPEG files

Before the samples of an image a JPEG file has segments, each with a length of its own.  They tell
the size and the components of the image (the frame), and hold the quantization tables, the prefix
codes, and which component uses which of these codes (the scan).  Here is how each kind of segment
is read, from its length on.
-/

namespace SvgDisplayList

namespace Jpeg

/-! ### Reading bytes -/

/-- A part of a file is read from the bytes that are left, and leaves others. -/
abbrev Read (α : Type) := StateT (List UInt8) (Except Error) α

/-- A given number of bytes. -/
def take (count : Nat) : Read (List UInt8) := fun bytes =>
  if bytes.length < count then .error (.truncated count bytes.length)
  else .ok (bytes.take count, bytes.drop count)

/-- A byte as a number. -/
def byte : Read Nat := return Bytes.toNat (← take 1)

/-- The number of two bytes. -/
def word : Read Nat := return Bytes.toNat (← take 2)

/-- A given number of bytes, which stay. -/
def peek (count : Nat) : Read (List UInt8) := fun bytes =>
  if bytes.length < count then .error (.truncated count bytes.length)
  else .ok (bytes.take count, bytes)

/-- Passes over bytes; the file may end before. -/
def skip (count : Nat) : Read Unit := fun bytes => .ok ((), bytes.drop count)

/-! ### Frames -/

/-- A component of an image: its number in the file, how many of its samples stand side by side and
one below the other for one of the least frequent component, its quantization table and its
codes. -/
structure Component where
  id : Nat
  across : Nat
  down : Nat
  table : Nat
  dcCode : Nat := 0
  acCode : Nat := 0
deriving DecidableEq, Repr

/-- What a frame tells. -/
structure Frame where
  progressive : Bool
  width : Nat
  height : Nat
  components : List Component
deriving DecidableEq, Repr

/-- The greatest number of components, and of tables and codes of each kind. -/
def maxComponents : Nat := 4

/-- The names of the components by their places. -/
def componentName (place : Nat) : String := ["Y", "Cb", "Cr", "Q"].getD place ""

/-- The greatest number of samples of a component for one of another. -/
def maxRatio : Nat := 4

/-- Reads the component at a place. -/
def readComponent (place : Nat) : Read Component := do
  let data ← take 3
  let id := (data.getD 0 0).toNat
  let ratios := (data.getD 1 0).toNat
  let table := (data.getD 2 0).toNat
  let across := ratios / 16
  let down := ratios % 16
  if maxComponents ≤ place then throw (.unknownComponent place)
  if maxComponents ≤ table then throw (.tableNumberTooLarge table)
  if across = 0 then throw .zeroWidthRatio
  if down = 0 then throw .zeroHeightRatio
  if maxRatio < across then throw (.widthRatioTooLarge across)
  if maxRatio < down then throw (.heightRatioTooLarge down)
  return { id, across, down, table }

/-- Reads a frame. -/
def readFrame (progressive : Bool) : Read Frame := do
  let length ← word
  let bits ← byte
  if bits ≠ 8 then throw (.unsupportedPrecision bits)
  let height ← word
  let width ← word
  if width = 0 || height = 0 then throw .zeroSize
  let count ← byte
  if count = 0 then throw .noComponents
  let expected := 8 + 3 * count
  if length ≠ expected then throw (.wrongFrameLength expected length)
  let components ← (List.range count).mapM readComponent
  return { progressive, width, height, components }

/-! ### Quantization tables -/

/-- Reads tables from as many bytes as are left of the segment.  Returns the positions of the tables
read. -/
def readTables : (turns left : Nat) → Read (List Nat)
  | 0, _ => return []
  | turns + 1, left => do
    if left = 0 then return []
    let info ← byte
    let precision := info / 16
    let position := info % 16
    let needed := 64 * (precision + 1) + 1
    if left < needed then throw (.tableTooLong left needed)
    if precision = 0 then
      let _ ← take 64
    else if precision = 1 then
      for _ in List.range 64 do
        let _ ← word
    else throw (.unknownTablePrecision precision)
    if maxComponents ≤ position then throw (.tablePositionTooLarge position)
    return position :: (← readTables turns (left - needed))

/-- Reads a segment of quantization tables. -/
def readTableSegment : Read (List Nat) := do
  let length ← word
  if length < 2 then throw .shortTableSegment
  readTables length (length - 2)

/-! ### Prefix codes -/

/-- What a code stands for: constant parts or others. -/
inductive CodeClass where
  | dc
  | ac
deriving DecidableEq, Repr

/-- Whether a code with so many words of each length leaves out the word of ones alone. -/
def leavesRoom (counts : List Nat) : Bool :=
  let ends := (counts.zipIdx 1).foldl
    (fun (acc : Nat × Bool) (count, length) =>
      let code := 2 * acc.1 + count
      (code, acc.2 && code < Nat.pow 2 length))
    (0, true)
  ends.2

/-- The codes of a file by their class and number, the one given last first. -/
abbrev Codes := List ((CodeClass × Nat) × PrefixCode)

/-- Reads codes from as many bytes as are left of the segment.  The last one comes first. -/
def readCodes : (turns left : Nat) → Codes → Read Codes
  | 0, _, codes => return codes
  | turns + 1, left, codes => do
    if left ≤ 16 then
      if 0 < left then throw .bytesBehindCodes
      return codes
    let info ← byte
    let index := info % 16
    if maxComponents ≤ index then throw (.codeIndexTooLarge index)
    if 1 < info / 16 then throw (.unknownCodeClass (info / 16))
    let codeClass := if info / 16 = 0 then CodeClass.dc else CodeClass.ac
    let counts := (← take 16).map UInt8.toNat
    let left := left - 17
    let total := counts.sum
    if 256 < total then throw .tooManySymbols
    if left < total then throw (.symbolsBeyondSegment total left)
    let symbols ← take total
    if !leavesRoom counts || codeClass = .dc && symbols.any (15 < ·.toNat) then throw .badCode
    let code : PrefixCode := ⟨counts, (symbols.map UInt8.toNat).toArray⟩
    readCodes turns (left - total) (((codeClass, index), code) :: codes)

/-- Reads a segment of prefix codes, which come before those known. -/
def readCodeSegment (codes : Codes) : Read Codes := do
  let length ← word
  if length < 2 then throw .shortCodeSegment
  readCodes length (length - 2) codes

/-! ### Scans -/

/-- What a scan holds: components by their places, the band of their coefficients, and whether bits
are added to coefficients that are known. -/
structure Scan where
  places : List Nat
  bandStart : Nat
  bandEnd : Nat
  refines : Bool
deriving DecidableEq, Repr

/-- Reads which components are in a scan and which codes they use. -/
def readScanComponents :
    (count : Nat) → (seen : List Nat) → List Component → Read (List Nat × List Component)
  | 0, _, components => return ([], components)
  | count + 1, seen, components => do
    let id ← byte
    if seen.contains id then throw (.duplicateScanComponent id)
    let codes ← byte
    match components.findIdx? (·.id == id) with
    | none => throw (.unknownScanComponent id (components.map (·.id)))
    | some place =>
      let (places, components) ← readScanComponents count (id :: seen)
        (components.modify place fun c => { c with dcCode := codes / 16, acCode := codes % 16 })
      return (place :: places, components)

/-- Reads the head of a scan of the components of a frame. -/
def readScan (frame? : Option Frame) : Read (Frame × Scan) := do
  let length ← word
  let count ← byte
  if length ≠ 6 + 2 * count then throw (.wrongScanLength length)
  if count = 0 || maxComponents < count then throw (.invalidScanCount count)
  match frame? with
  | none => throw .scanBeforeFrame
  | some frame =>
    let (places, components) ← readScanComponents count [] frame.components
    let bandStart ← byte
    let bandEnd ← byte
    let bits ← byte
    if 63 < bandEnd then throw (.invalidBandEnd bandEnd)
    if 63 < bandStart then throw (.invalidBandStart bandStart)
    if 13 < bits / 16 then throw (.invalidHighBit 0)
    if 13 < bits % 16 then throw (.invalidLowBit (bits % 16))
    return ({ frame with components }, { places, bandStart, bandEnd, refines := bits / 16 ≠ 0 })

/-! ### Application segments -/

/-- The mark of a file that is an image of a motion picture, which may leave out the usual codes. -/
def motionMark : List UInt8 := [0x41, 0x56, 0x49, 0x31, 0]

/-- Reads the first application segment.  Returns whether the usual codes may be left out. -/
def readApplication : Read Bool := do
  let length ← word
  if length < 2 then throw (.shortSegment length)
  if 5 < length then
    let mark ← take 5
    skip (length - 7)
    return mark == motionMark
  else
    skip (length - 2)
    return false

/-- The length of one of the other application segments without the two bytes of the length, which
count as nought where the file ends. -/
def applicationLength (number : Nat) : Read Nat := do
  let length := Bytes.toNat ((← get).take 2)
  if (← get).length < 2 || length < 2 then throw (.shortApplicationSegment number)
  skip 2
  return length - 2

/-- Whether the next bytes of a segment are a mark with something behind it. -/
def isMarked (left behind : Nat) (m : List UInt8) : Read Bool := do
  if left ≤ m.length + behind then return false else return (← peek m.length) == m

/-- The mark of a description of the picture by a camera. -/
def cameraMark : List UInt8 := [0x45, 0x78, 0x69, 0x66, 0, 0]

/-- The mark of a description of the picture by an editor. -/
def editorMark : List UInt8 :=
  [0x68, 0x74, 0x74, 0x70, 0x3a, 0x2f, 0x2f, 0x6e, 0x73, 0x2e, 0x61, 0x64, 0x6f, 0x62, 0x65, 0x2e,
   0x63, 0x6f, 0x6d, 0x2f, 0x78, 0x61, 0x70, 0x2f, 0x31, 0x2e, 0x30, 0x2f, 0x00]

/-- The mark of the continuation of a description by an editor. -/
def extendedMark : List UInt8 :=
  [0x68, 0x74, 0x74, 0x70, 0x3a, 0x2f, 0x2f, 0x6e, 0x73, 0x2e, 0x61, 0x64, 0x6f, 0x62, 0x65, 0x2e,
   0x63, 0x6f, 0x6d, 0x2f, 0x78, 0x6d, 0x70, 0x2f, 0x65, 0x78, 0x74, 0x65, 0x6e, 0x73, 0x69, 0x6f,
   0x6e, 0x2f, 0x00]

/-- How long the name of a description is that a segment continues. -/
def extendedNameLength : Nat := 32

/-- How many bytes tell the length of the whole description and the place of the part. -/
def extendedPlaceLength : Nat := 8

/-- Reads a segment that describes the picture. -/
def readDescription : Read Unit := do
  let left ← applicationLength 1
  if ← isMarked left 0 cameraMark then
    skip cameraMark.length
    let _ ← take (left - cameraMark.length)
  else if ← isMarked left 0 editorMark then
    skip editorMark.length
    let _ ← take (left - editorMark.length)
  else if ← isMarked left 0 extendedMark then
    let left := left - extendedMark.length
    let head := extendedNameLength + extendedPlaceLength
    if left < head then throw .shortExtendedMetadata
    skip extendedMark.length
    let _ ← take extendedNameLength
    skip extendedPlaceLength
    let _ ← take (left - head)
  else skip left

/-- The mark of a part of a profile of colours, behind which come the number of the part and the
number of parts. -/
def profileMark : List UInt8 :=
  [0x49, 0x43, 0x43, 0x5f, 0x50, 0x52, 0x4f, 0x46, 0x49, 0x4c, 0x45, 0x00]

/-- Reads a segment that may hold a profile of colours. -/
def readProfile : Read Unit := do
  let left ← applicationLength 2
  if ← isMarked left 2 profileMark then
    skip (profileMark.length + 2)
    let _ ← take (left - profileMark.length - 2)
  else skip left

/-- The mark of a segment of captions. -/
def captionMark : List UInt8 :=
  [0x50, 0x68, 0x6f, 0x74, 0x6f, 0x73, 0x68, 0x6f, 0x70, 0x20, 0x33, 0x2e, 0x30]

/-- Reads a segment that may hold captions. -/
def readCaptions : Read Unit := do
  let left ← applicationLength 13
  if ← isMarked left 0 captionMark then
    skip captionMark.length
    let _ ← take (left - captionMark.length)
  else skip left

/-- The mark of a segment that tells what the components stand for. -/
def colorMark : List UInt8 := [0x41, 0x64, 0x6f, 0x62, 0x65]

/-- Reads the segment that may tell what the components stand for.  Returns whether it does. -/
def readColorSegment : Read Bool := do
  let left ← applicationLength 14
  if (← peek colorMark.length) = colorMark then
    if left < 12 then throw .shortColorSegment
    skip 11
    let transform ← byte
    if 2 < transform then throw (.unknownColorTransform transform)
    skip (left - 12)
    return true
  else
    skip left
    return false

/-! ### Other segments -/

/-- Passes over a segment. -/
def skipSegment : Read Unit := do
  let length ← word
  if length < 2 then throw (.shortSegment length)
  skip (length - 2)

/-- Reads how many units there are between restarts. -/
def readRestarts : Read Nat := do
  let length ← word
  if length ≠ 4 then throw .wrongRestartLength
  word

end Jpeg

end SvgDisplayList
