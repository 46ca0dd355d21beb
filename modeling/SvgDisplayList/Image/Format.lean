/-!
# Image formats

Two formats can be embedded: PNG and JPEG.  Others are recognised by the bytes they start with, so
that an error can name them.
-/

namespace SvgDisplayList

/-- A format whose images can be embedded. -/
inductive ImageFormat where
  | png
  | jpeg
deriving DecidableEq, Repr

namespace ImageFormat

def mediaType : ImageFormat → String
  | png => "image/png"
  | jpeg => "image/jpeg"

/-- The format of a media type in lower case. -/
def ofMediaType? : String → Option ImageFormat
  | "image/png" => some png
  | "image/jpeg" => some jpeg
  | "image/jpg" => some jpeg
  | _ => none

end ImageFormat

/-- One byte of a signature: a given one, or any. -/
abbrev BytePattern := Option UInt8

namespace MediaSignature

/-- The pattern of the characters of a text. -/
def exactly (s : String) : List BytePattern := s.toList.map fun c => some (UInt8.ofNat c.toNat)

/-- The pattern of given bytes. -/
def bytes (ns : List Nat) : List BytePattern := ns.map fun n => some (UInt8.ofNat n)

/-- The pattern that any bytes meet. -/
def anything (count : Nat) : List BytePattern := List.replicate count none

/-- Whether a text of bytes starts with a pattern. -/
def startsWith : List BytePattern → List UInt8 → Bool
  | [], _ => true
  | none :: ps, _ :: bs => startsWith ps bs
  | some p :: ps, b :: bs => p == b && startsWith ps bs
  | _ :: _, [] => false

/-- The signatures with their media types, in the order in which they are tried. -/
def all : List (List BytePattern × String) :=
  [(bytes [0x89, 0x50, 0x4e, 0x47, 0x0d, 0x0a, 0x1a, 0x0a], "image/png"),
   (bytes [0xff, 0xd8, 0xff], "image/jpeg"),
   (exactly "GIF89a", "image/gif"),
   (exactly "GIF87a", "image/gif"),
   (exactly "RIFF" ++ anything 4 ++ exactly "WEBP", "image/webp"),
   (bytes [0x4d, 0x4d, 0x00, 0x2a], "image/tiff"),
   (bytes [0x49, 0x49, 0x2a, 0x00], "image/tiff"),
   (exactly "DDS ", "image/vnd-ms.dds"),
   (exactly "BM", "image/bmp"),
   (bytes [0x00, 0x00, 0x01, 0x00], "image/x-icon"),
   (exactly "#?RADIANCE", "image/vnd.radiance"),
   (bytes [0x00, 0x00] ++ anything 2 ++ exactly "ftypavif", "image/avif"),
   (bytes [0x76, 0x2f, 0x31, 0x01], "image/x-exr"),
   (exactly "qoif", "image/x-qoi"),
   (exactly "P1", "image/x-portable-anymap"),
   (exactly "P2", "image/x-portable-anymap"),
   (exactly "P3", "image/x-portable-anymap"),
   (exactly "P4", "image/x-portable-anymap"),
   (exactly "P5", "image/x-portable-anymap"),
   (exactly "P6", "image/x-portable-anymap"),
   (exactly "P7", "image/x-portable-anymap"),
   (exactly "farbfeld", "application/octet-stream")]

/-- The media type that the first bytes of a file show. -/
def mediaTypeOf (data : List UInt8) : String :=
  ((all.find? fun s => startsWith s.1 data).map (·.2)).getD "application/octet-stream"

end MediaSignature

end SvgDisplayList
