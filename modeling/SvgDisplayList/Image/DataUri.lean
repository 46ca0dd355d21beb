import SvgDisplayList.Codec.Base64
import SvgDisplayList.Image.Format
import SvgDisplayList.Text.Blank

/-!
# Data URIs

An embedded image stands in the document as `data:[<media type>][;<parameter>]*,<payload>`.  The
payload has to be base64, said by a parameter `base64`; white space of ASCII in it does not count.
Without a media type the first bytes of the image decide.
-/

namespace SvgDisplayList

/-- Why an image cannot be embedded. -/
inductive ImageError where
  | notDataUri
  | unsupportedEncoding
  | invalidBase64 (error : Base64.DecodeError)
  | unsupportedMediaType (mediaType : String)
  | invalidSize
  | undecodable (reason : String)
deriving DecidableEq, Repr

namespace ImageError

def message : ImageError → String
  | notDataUri => "image reference is not a data URI"
  | unsupportedEncoding => "data URI payload is not base64-encoded"
  | invalidBase64 e => "invalid base64 payload: " ++ e.message
  | unsupportedMediaType mediaType => "unsupported image media type '" ++ mediaType ++ "'"
  | invalidSize => "image has no usable size"
  | undecodable reason => "image decode failed: " ++ reason

end ImageError

/-- An image file and its format. -/
structure EmbeddedImage where
  data : List UInt8
  format : ImageFormat
deriving DecidableEq, Repr

namespace EmbeddedImage

/-- The UTF-8 bytes of a text. -/
def utf8 (cs : List Char) : List UInt8 := (String.ofList cs).toUTF8.toList

/-- The format of an image by its declared media type, or by its bytes where none is declared. -/
def formatOf (mediaType : String) (data : List UInt8) : Except ImageError ImageFormat :=
  let mediaType := if mediaType.isEmpty then MediaSignature.mediaTypeOf data else mediaType
  match ImageFormat.ofMediaType? mediaType with
  | some format => .ok format
  | none => .error (.unsupportedMediaType mediaType)

/-- The image that a data URI holds. -/
def ofDataUri (uri : String) : Except ImageError EmbeddedImage :=
  match Text.after? "data:".toList (Text.trim uri.toList) with
  | none => .error .notDataUri
  | some rest =>
    match Text.splitAt? (· == ',') rest with
    | none => .error .notDataUri
    | some (header, payload) =>
      let parameters := (Text.pieces (· == ';') header).map Text.trim
      if !(parameters.drop 1).any fun p => Text.sameIgnoringCase p "base64".toList then
        .error .unsupportedEncoding
      else
        match Base64.decode (utf8 (payload.filter fun c => !Text.isAsciiBlank c)) with
        | .error e => .error (.invalidBase64 e)
        | .ok data =>
          (formatOf (String.ofList (Text.lower (parameters.headD []))) data).map fun format =>
            ⟨data, format⟩

end EmbeddedImage

end SvgDisplayList
