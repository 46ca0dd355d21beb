import SvgDisplayList.Codec.Bytes
import SvgDisplayList.Codec.Crc32
import SvgDisplayList.Codec.Inflate

/-!
# Chunks of PNG files

Behind a signature of eight bytes a PNG file is a list of chunks.  A chunk has a length, a type of
four letters, its data and a check of type and data.  The case of the letters of a type tells what
may be done with the chunk by whom does not know it.
-/

namespace SvgDisplayList

namespace Png

/-- The type of a chunk. -/
structure ChunkType where
  letters : List UInt8
deriving DecidableEq, Repr

namespace ChunkType

/-- The type that four characters spell. -/
def ofText (s : String) : ChunkType := ⟨s.toList.map fun c => UInt8.ofNat c.toNat⟩

def header : ChunkType := ofText "IHDR"

def palette : ChunkType := ofText "PLTE"

def transparency : ChunkType := ofText "tRNS"

def imageData : ChunkType := ofText "IDAT"

def ending : ChunkType := ofText "IEND"

def background : ChunkType := ofText "bKGD"

def codePoints : ChunkType := ofText "cICP"

def frameControl : ChunkType := ofText "fcTL"

def frameData : ChunkType := ofText "fdAT"

/-- Whether a letter of the type is a small one. -/
def isSmall (t : ChunkType) (place : Nat) : Bool := (t.letters.getD place 0).toNat.testBit 5

/-- Whether the image cannot be read without the chunk. -/
def isCritical (t : ChunkType) : Bool := !t.isSmall 0

/-- The least and the greatest length of chunks that are not passed over. -/
def lengths : List (ChunkType × Nat × Nat) :=
  [(header, 13, 13), (palette, 3, 768), (transparency, 1, 256), (imageData, 0, 0x7fffffff),
   (ending, 0, 0), (background, 1, 6), (codePoints, 4, 4), (frameControl, 26, 26)]

/-- Whether a chunk may have a length. -/
def allowsLength (t : ChunkType) (length : Nat) : Bool :=
  match lengths.lookup t with
  | none => true
  | some (least, greatest) => least ≤ length && length ≤ greatest

/-- A letter of a type as it is shown. -/
def letterText (b : UInt8) : List Char :=
  match Char.ofNat b.toNat with
  | '\x00' => ['\\', '0']
  | '\t' => ['\\', 't']
  | '\n' => ['\\', 'n']
  | '\r' => ['\\', 'r']
  | '"' => ['\\', '"']
  | '\'' => ['\\', '\'']
  | '\\' => ['\\', '\\']
  | c =>
    if c.toNat < 0x20 || 0x7f ≤ c.toNat && c.toNat ≤ 0xa0 || c.toNat == 0xad then
      '\\' :: 'u' :: '\x7b' :: (Nat.toDigits 16 c.toNat ++ ['\x7d'])
    else [c]

/-- A type with what its letters tell. -/
def description (t : ChunkType) : String :=
  let flag (b : Bool) : String := if b then "true" else "false"
  "ChunkType \x7b type: " ++ String.ofList (t.letters.flatMap letterText) ++
    ", critical: " ++ flag t.isCritical ++ ", private: " ++ flag (t.isSmall 1) ++
    ", reserved: " ++ flag (t.isSmall 2) ++ ", safecopy: " ++ flag (t.isSmall 3) ++ " \x7d"

end ChunkType

/-! ### Colours -/

/-- What the samples of an image stand for. -/
inductive ColorType where
  | grayscale
  | rgb
  | indexed
  | grayscaleAlpha
  | rgba
deriving DecidableEq, Repr

namespace ColorType

/-- The colour type of a number. -/
def ofNat? : Nat → Option ColorType
  | 0 => some grayscale
  | 2 => some rgb
  | 3 => some indexed
  | 4 => some grayscaleAlpha
  | 6 => some rgba
  | _ => none

def name : ColorType → String
  | grayscale => "Grayscale"
  | rgb => "Rgb"
  | indexed => "Indexed"
  | grayscaleAlpha => "GrayscaleAlpha"
  | rgba => "Rgba"

/-- How many samples a pixel has. -/
def samples : ColorType → Nat
  | grayscale => 1
  | rgb => 3
  | indexed => 1
  | grayscaleAlpha => 2
  | rgba => 4

/-- Whether samples may have a number of bits. -/
def allows (c : ColorType) (depth : Nat) : Bool :=
  match c with
  | grayscale => true
  | indexed => depth != 16
  | _ => 8 ≤ depth

end ColorType

/-- The name of a number of bits. -/
def depthName : Nat → String
  | 1 => "One"
  | 2 => "Two"
  | 4 => "Four"
  | 8 => "Eight"
  | _ => "Sixteen"

/-! ### Errors -/

/-- Why a PNG file cannot be decoded. -/
inductive Error where
  /-- The file ends too early. -/
  | truncated
  /-- The image would take too much memory. -/
  | tooLarge
  | invalidSignature
  | chunkBeforeHeader (type : ChunkType)
  | checkMismatch (expected found : Nat) (type : ChunkType)
  | duplicateChunk (type : ChunkType)
  | unrecognizedCriticalChunk (type : ChunkType)
  | wrongLength (type : ChunkType)
  | invalidDimensions
  | invalidDepth (depth : Nat)
  | invalidColorType (number : Nat)
  | invalidColorDepth (type : ColorType) (depth : Nat)
  | unknownCompressionMethod (number : Nat)
  | unknownFilterMethod (number : Nat)
  | unknownInterlaceMethod (number : Nat)
  /-- A chunk holds what it must not hold. -/
  | invalidData
  | wrongSequence (expected found : Nat)
  | invalidDisposal (number : Nat)
  | invalidBlending (number : Nat)
  | frameOutOfBounds
  | unexpectedRestart (type : ChunkType)
  | missingImageData
  | notEnoughImageData
  | missingPalette
  | corruptStream (fault : Inflate.Fault)
deriving DecidableEq, Repr

namespace Error

/-- A number in lower-case hexadecimal. -/
def hex (n : Nat) : String := "0x" ++ String.ofList (Nat.toDigits 16 n)

/-- What is wrong with the format. -/
def reason : Error → String
  | truncated => ""
  | tooLarge => ""
  | invalidData => ""
  | invalidSignature => "Invalid PNG signature."
  | chunkBeforeHeader type => type.description ++ " chunk appeared before IHDR chunk"
  | checkMismatch expected found type =>
    "CRC error: expected " ++ hex expected ++ " have " ++ hex found ++ " while decoding " ++
      type.description ++ " chunk."
  | duplicateChunk type => "Chunk " ++ type.description ++ " must appear at most once."
  | unrecognizedCriticalChunk type => "Unrecognized critical chunk: " ++ type.description
  | wrongLength type => "Chunk length wrong: " ++ type.description
  | invalidDimensions => "Invalid image dimensions"
  | invalidDepth depth => "Invalid bit depth " ++ toString depth ++ "."
  | invalidColorType number => "Invalid color type " ++ toString number ++ "."
  | invalidColorDepth type depth =>
    "Invalid color/depth combination in header: " ++ type.name ++ "/" ++ depthName depth
  | unknownCompressionMethod number => "Unknown compression method " ++ toString number ++ "."
  | unknownFilterMethod number => "Unknown filter method " ++ toString number ++ "."
  | unknownInterlaceMethod number => "Unknown interlace method " ++ toString number ++ "."
  | wrongSequence expected found =>
    "Sequence is not in order, expected #" ++ toString expected ++ " got #" ++ toString found ++ "."
  | invalidDisposal number => "Invalid dispose op " ++ toString number ++ "."
  | invalidBlending number => "Invalid blend op " ++ toString number ++ "."
  | frameOutOfBounds => "Sub frame is out-of-bounds."
  | unexpectedRestart type => "Unexpected restart of " ++ type.description ++ " chunk sequence"
  | missingImageData => "IDAT or fDAT chunk is missing."
  | notEnoughImageData => "IDAT or fDAT chunk does not have enough data for image."
  | missingPalette => "Missing palette of indexed image."
  | corruptStream fault => "Corrupt deflate stream. " ++ fault.name

def message : Error → String
  | truncated => "unexpected end of file"
  | tooLarge => "Memory limit exceeded"
  | invalidData => "invalid data"
  | e => "Format error decoding Png: " ++ e.reason

end Error

/-! ### Reading chunks -/

/-- The length and the type of a chunk. -/
structure ChunkHead where
  length : Nat
  type : ChunkType

/-- The head of a chunk and what follows it. -/
def chunkHead (bytes : List UInt8) : Except Error (ChunkHead × List UInt8) :=
  match bytes with
  | a :: b :: c :: d :: w :: x :: y :: z :: rest =>
    .ok (⟨Bytes.toNat [a, b, c, d], ⟨[w, x, y, z]⟩⟩, rest)
  | _ => .error .truncated

/-- Checks what the head of a chunk tells.  Of chunks that are not critical only those that control
frames need have a length of their own; and there is no frame but the image itself, so no other
data. -/
def ChunkHead.check (head : ChunkHead) : Except Error Unit :=
  if head.type = .frameData then .error (.unexpectedRestart head.type)
  else if !head.type.isCritical && head.type != .frameControl then .ok ()
  else if (ChunkType.lengths.lookup head.type).isNone then
    .error (.unrecognizedCriticalChunk head.type)
  else if !head.type.allowsLength head.length then .error (.wrongLength head.type)
  else .ok ()

/-- Compares the check behind the data of a chunk.  Returns what follows it. -/
def passCheck (type : ChunkType) (data bytes : List UInt8) : Except Error (List UInt8) :=
  match bytes with
  | a :: b :: c :: d :: rest =>
    let expected := Bytes.toNat [a, b, c, d]
    let found := Crc32.ofBytes (type.letters ++ data)
    if expected = found then .ok rest else .error (.checkMismatch expected found type)
  | _ => .error .truncated

/-- The data of a chunk and what follows its check. -/
def chunkData (head : ChunkHead) (bytes : List UInt8) : Except Error (List UInt8 × List UInt8) :=
  match Bytes.slice? bytes 0 head.length with
  | none => .error .truncated
  | some data => (passCheck head.type data (bytes.drop head.length)).map fun rest => (data, rest)

end Png

end SvgDisplayList
