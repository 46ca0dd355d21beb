import SvgDisplayList.Image.PngChunk

/-!
# PNG files

An image is decoded as far as its size and its faults are concerned: the header, the palette, and
the rows of the image data, of which the kind of filter counts.  What is behind the image data is
not looked at, but for the head of the next chunk, with which the image data ends.

The data chunks make up one compressed stream.  A row is read as soon as it is complete and the
stream can no longer refer to it, so of two faults the one that is met first counts.
-/

namespace SvgDisplayList

namespace Png

/-! ### The header -/

/-- The bytes that every file starts with. -/
def signature : List UInt8 := [0x89, 0x50, 0x4e, 0x47, 0x0d, 0x0a, 0x1a, 0x0a]

/-- Compares the signature, four bytes at a time.  Returns what follows it. -/
def passSignature (file : List UInt8) : Except Error (List UInt8) :=
  if file.length < 4 then .error .truncated
  else if file.take 4 ≠ signature.take 4 then .error .invalidSignature
  else if file.length < 8 then .error .truncated
  else if file.take 8 ≠ signature then .error .invalidSignature
  else .ok (file.drop 8)

/-- What the header tells. -/
structure Header where
  width : Nat
  height : Nat
  depth : Nat
  colorType : ColorType
  interlaced : Bool
deriving DecidableEq, Repr

/-- A byte of the header. -/
def headerByte (data : List UInt8) (offset : Nat) : Except Error Nat :=
  match data[offset]? with
  | some b => .ok b.toNat
  | none => .error (.wrongLength .header)

/-- Four bytes of the header. -/
def headerLong (data : List UInt8) (offset : Nat) : Except Error Nat :=
  match Bytes.long? data offset with
  | some n => .ok n
  | none => .error (.wrongLength .header)

/-- The number of bits of a sample. -/
def depthOf (n : Nat) : Except Error Nat :=
  if [1, 2, 4, 8, 16].contains n then .ok n else .error (.invalidDepth n)

/-- The colour type of an image with samples of a number of bits. -/
def colorTypeOf (n depth : Nat) : Except Error ColorType :=
  match ColorType.ofNat? n with
  | none => .error (.invalidColorType n)
  | some c => if c.allows depth then .ok c else .error (.invalidColorDepth c depth)

/-- The header as its chunk has it. -/
def Header.ofData (data : List UInt8) : Except Error Header := do
  let width ← headerLong data 0
  let height ← headerLong data 4
  if width = 0 || height = 0 then .error .invalidDimensions
  let depth ← depthOf (← headerByte data 8)
  let colorType ← colorTypeOf (← headerByte data 9) depth
  let compression ← headerByte data 10
  if compression ≠ 0 then .error (.unknownCompressionMethod compression)
  let filter ← headerByte data 11
  if filter ≠ 0 then .error (.unknownFilterMethod filter)
  let interlace ← headerByte data 12
  if 1 < interlace then .error (.unknownInterlaceMethod interlace)
  return { width, height, depth, colorType, interlaced := interlace = 1 }

/-- The header of a file and what follows its chunk. -/
def readHeader (file : List UInt8) : Except Error (Header × List UInt8) := do
  let rest ← passSignature file
  let (head, rest) ← chunkHead rest
  if head.type ≠ .header then .error (.chunkBeforeHeader head.type)
  head.check
  let (data, rest) ← chunkData head rest
  return (← Header.ofData data, rest)

/-! ### The chunks before the image data -/

/-- What the chunks before the image data have told. -/
structure Preamble where
  palette : Bool := false
  transparency : Bool := false
  /-- Whether the meaning of the colours has been given by numbers of a standard. -/
  codePoints : Bool := false
  /-- The number of the last chunk that controls a frame. -/
  sequence? : Option Nat := none
deriving DecidableEq, Repr

/-- Whether a chunk of transparency is sound; a faulty one does not count. -/
def isTransparency (header : Header) (before : Preamble) (data : List UInt8) : Bool :=
  match header.colorType with
  | .grayscale => 2 ≤ data.length
  | .rgb => 6 ≤ data.length
  | .indexed => before.palette
  | _ => false

/-- Whether the numbers that tell the meaning of the colours are sound: images have no matrix of
their own, and the last number is a truth value. -/
def areCodePoints (data : List UInt8) : Bool :=
  (data.getD 2 0).toNat = 0 && (data.getD 3 0).toNat ≤ 1

/-- Checks the control of the frame that is the image itself.  Returns its number. -/
def checkFrame (header : Header) (before : Preamble) (data : List UInt8) : Except Error Nat := do
  let long (offset : Nat) : Nat := (Bytes.long? data offset).getD 0
  let number := long 0
  let expected := (before.sequence?.map (· + 1)).getD 0
  if number ≠ expected then .error (.wrongSequence expected number)
  let disposal := (data.getD 24 0).toNat
  if 2 < disposal then .error (.invalidDisposal disposal)
  let blending := (data.getD 25 0).toNat
  if 1 < blending then .error (.invalidBlending blending)
  if long 4 = 0 || long 8 = 0 then .error .invalidDimensions
  if long 4 ≠ header.width || long 8 ≠ header.height || long 12 ≠ 0 || long 16 ≠ 0 then
    .error .frameOutOfBounds
  return number

/-- What is known behind a chunk before the image data.  A chunk that is not critical does not count
if it is too long or too short. -/
def addChunk (header : Header) (before : Preamble) (type : ChunkType) (data : List UInt8) :
    Except Error Preamble :=
  if type = .header then .error (.duplicateChunk type)
  else if type = .palette then
    if before.palette then .error (.duplicateChunk type) else .ok { before with palette := true }
  else if type = .ending then .error .missingImageData
  else if !type.allowsLength data.length then .ok before
  else if type = .transparency then
    .ok { before with transparency := before.transparency || isTransparency header before data }
  else if type = .frameControl then
    (checkFrame header before data).map fun number => { before with sequence? := some number }
  else if type = .codePoints then
    if before.palette || before.codePoints then .ok before
    else if areCodePoints data then .ok { before with codePoints := true }
    else .error .invalidData
  else if type = .background && header.colorType = .indexed && !before.palette then
    .error .invalidData
  else .ok before

/-- Reads chunks up to the image data.  Returns the head of the first chunk of image data and what
follows it.  A chunk that is not critical does not count if its check fails. -/
def readPreamble (header : Header) :
    (turns : Nat) → Preamble → List UInt8 → Except Error (Preamble × Nat × List UInt8)
  | 0, _, _ => .error .truncated
  | turns + 1, before, bytes => do
    let (head, rest) ← chunkHead bytes
    head.check
    if head.type = .imageData then return (before, head.length, rest)
    match chunkData head rest with
    | .ok (data, rest) => readPreamble header turns (← addChunk header before head.type data) rest
    | .error (.checkMismatch expected found type) =>
      if type.isCritical then .error (.checkMismatch expected found type)
      else readPreamble header turns before (rest.drop (head.length + 4))
    | .error e => .error e

/-! ### Rows -/

/-- Rows of one length, the byte that tells the filter included. -/
structure Pass where
  rowLength : Nat
  rowCount : Nat

/-- How many bits a pixel has. -/
def Header.pixelBits (h : Header) : Nat := h.colorType.samples * h.depth

/-- The rows of a part of the image. -/
def Header.pass (h : Header) (width height : Nat) : List Pass :=
  if width = 0 || height = 0 then [] else [⟨1 + (width * h.pixelBits + 7) / 8, height⟩]

/-- Where each part of an interlaced image starts, and the steps from pixel to pixel and from row to
row. -/
def interlacing : List ((Nat × Nat) × (Nat × Nat)) :=
  [((0, 0), (8, 8)), ((4, 0), (8, 8)), ((0, 4), (4, 8)), ((2, 0), (4, 4)), ((0, 2), (2, 4)),
   ((1, 0), (2, 2)), ((0, 1), (1, 2))]

/-- The rows of the image in the order in which they are stored. -/
def Header.passes (h : Header) : List Pass :=
  if h.interlaced then
    interlacing.flatMap fun ((x, y), (dx, dy)) =>
      h.pass ((h.width + dx - 1 - x) / dx) ((h.height + dy - 1 - y) / dy)
  else h.pass h.width h.height

/-- How many bytes the stream is expected to yield at most: parts of an interlaced image that have
no pixel in a row are taken to have the row all the same. -/
def Header.streamLength (h : Header) : Nat :=
  let rowLength (width : Nat) : Nat := 1 + (width * h.pixelBits + 7) / 8
  if h.interlaced then
    interlacing.foldl (fun n ((x, y), (dx, dy)) =>
      n + rowLength ((h.width + dx - 1 - x) / dx) * ((h.height + dy - 1 - y) / dy)) 0
  else rowLength h.width * h.height

/-- The rows that are still to be read, and where they start. -/
structure Rows where
  passes : List Pass
  offset : Nat

/-- The greatest number of a filter. -/
def lastFilter : Nat := 4

/-- Reads all rows that are complete in the bytes that are settled.  A palette is missed as soon as
there is a row to show. -/
def advance (needsPalette : Bool) (output : Array UInt8) (settled : Nat) :
    (turns : Nat) → Rows → Except Error Rows
  | 0, rows => .ok rows
  | turns + 1, rows =>
    match rows.passes with
    | [] => .ok rows
    | p :: ps =>
      if p.rowCount = 0 then advance needsPalette output settled turns ⟨ps, rows.offset⟩
      else if settled < rows.offset + p.rowLength then .ok rows
      else
        let filter := (output.getD rows.offset 0).toNat
        if lastFilter < filter then .error (.unknownFilterMethod filter)
        else if needsPalette then .error .missingPalette
        else
          advance needsPalette output settled turns
            ⟨⟨p.rowLength, p.rowCount - 1⟩ :: ps, rows.offset + p.rowLength⟩

/-- Whether all rows have been read. -/
def Rows.isDone (rows : Rows) : Bool := rows.passes.all fun p => p.rowCount == 0

/-- How far back a stream may refer. -/
def window : Nat := 0x8000

/-- How many bytes are inflated at once. -/
def portion : Nat := 0x2000

/-- How many of the bytes of a stream are settled: all if no more are to come, else those that the
stream cannot refer to any more.  Of a portion with a fault none are known. -/
def settledLength (wanted : Nat) (inflated : Inflate.Inflated) : Nat :=
  let size := inflated.output.size
  match inflated.stop with
  | .finished | .full => size
  | .starved => if wanted ≤ size then size else size - window
  | .faulty _ => size / portion * portion - window

/-- Reads the rows of a compressed stream as far as it goes.  Returns them and whether the stream is
finished. -/
def readRows (needsPalette : Bool) (wanted : Nat) (stream : List UInt8) (rows : Rows) :
    Except Error (Rows × Bool) := do
  let inflated := Inflate.stream wanted stream
  let settled := settledLength wanted inflated
  let rows ← advance needsPalette inflated.output settled (settled + rows.passes.length + 1) rows
  match inflated.stop with
  | .faulty fault => .error (.corruptStream fault)
  | stop => return (rows, stop == .finished)

/-- Reads chunks of image data.  What the chunks before have given of the stream is known; the chunk
at hand has a length.  The stream is not inflated any further when all rows have been read. -/
def readData (needsPalette : Bool) (wanted : Nat) :
    (turns : Nat) → (stream : List UInt8) → Rows → (length : Nat) → List UInt8 → Except Error Unit
  | 0, _, _, _, _ => .error .truncated
  | turns + 1, stream, rows, length, bytes => do
    let data := bytes.take length
    let stream := stream ++ data
    let (rows, finished) ←
      if rows.isDone then .ok (rows, true) else readRows needsPalette wanted stream rows
    if data.length < length then .error .truncated
    let rest ← passCheck .imageData data (bytes.drop length)
    let (head, rest) ← chunkHead rest
    if head.type = .imageData then
      head.check
      readData needsPalette wanted turns stream rows head.length rest
    else if rows.isDone then return ()
    else if finished then .error .notEnoughImageData
    else .error (.corruptStream .insufficientInput)

/-! ### Images -/

/-- How much memory an image may take. -/
def memoryLimit : Nat := 512 * 0x100000

/-- How much memory there can be at all. -/
def addressLimit : Nat := 0x7fffffffffffffff

/-- How much memory the image takes: whole bytes for every sample, with the palette and the
transparency worked in. -/
def Header.memory (h : Header) (transparency : Bool) : Nat :=
  let opaqueSamples := match h.colorType with
    | .indexed => 3
    | c => c.samples
  let samples := if transparency then opaqueSamples + 1 else opaqueSamples
  h.width * h.height * samples * (if h.depth = 16 then 2 else 1)

/-- The width and the height of the image in a file that can be decoded. -/
def size (file : List UInt8) : Except Error (Nat × Nat) := do
  let (header, rest) ← readHeader file
  if addressLimit < header.memory false then .error .tooLarge
  let (before, length, rest) ← readPreamble header (file.length + 1) {} rest
  if memoryLimit < header.memory before.transparency then .error .tooLarge
  let needsPalette := header.colorType == .indexed && !before.palette
  readData needsPalette header.streamLength (file.length + 1) [] ⟨header.passes, 0⟩ length rest
  return (header.width, header.height)

end Png

end SvgDisplayList
