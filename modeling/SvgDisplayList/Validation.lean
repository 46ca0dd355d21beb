import SvgDisplayList.Error
import SvgDisplayList.Text.Utf8

/-!
# Validation

A document is admitted when it is well-formed XML with a root element, whatever the name of that
element.
-/

namespace SvgDisplayList

/-- Why a document is not admitted. -/
inductive ValidationError where
  | unreadable (reason : String)
  | malformed (detail : String)
  | missingRoot
deriving DecidableEq, Repr

namespace ValidationError

def message : ValidationError → String
  | unreadable reason => "Failed to read SVG file: " ++ reason
  | malformed detail => "SVG validation failed: " ++ detail
  | missingRoot => "SVG has no root element"

/-- What the command line says about a file. -/
def report (e : ValidationError) (file : String) : String :=
  let cause := match e with
    | malformed detail => "ERROR: SVG validation failed\nError: " ++ detail
    | e => "ERROR: " ++ e.message
  cause ++ "\nFile: " ++ file ++ "\n"

end ValidationError

namespace Validation

/-- Admits a text. -/
def ofText (text : String) : Except ValidationError Unit :=
  match Xml.Document.read text with
  | .ok _ => .ok ()
  | .error .missingRoot => .error .missingRoot
  | .error e => .error (.malformed e.message)

/-- Admits the contents of a file. -/
def ofBytes (bytes : List UInt8) : Except ValidationError Unit :=
  match Utf8.decode bytes with
  | .ok cs => ofText (String.ofList cs)
  | .error e => .error (.malformed ("invalid UTF-8: " ++ e.message))

end Validation

end SvgDisplayList
