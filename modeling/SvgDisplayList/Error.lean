import SvgDisplayList.Xml.Reader

/-!
# Document errors

What ends the translation of a whole document, as opposed to what is wrong with a single element of
it.
-/

namespace SvgDisplayList

/-- Why a document has no translation at all. -/
inductive DocumentError where
  | unreadable (reason : String)
  | xml (error : XmlError)
  | missingRoot
  | unexpectedRoot (name : String)
  | aborted
  | invalidConfiguration (reason : String)
deriving DecidableEq, Repr

namespace DocumentError

def message : DocumentError → String
  | unreadable reason => "io error: " ++ reason
  | xml e => "xml parse error: " ++ e.message
  | missingRoot => "document has no root element"
  | unexpectedRoot name => "root element is <" ++ name ++ ">, expected <svg>"
  | aborted => "translation aborted"
  | invalidConfiguration reason => "invalid configuration: " ++ reason

/-- An XML error as a document error; the absence of a root element has its own. -/
def ofXml : XmlError → DocumentError
  | .noRoot => missingRoot
  | e => xml e

end DocumentError

/-- Reads the tree of a document. -/
def Xml.Document.read (text : String) : Except DocumentError Xml.Document :=
  (Xml.Document.ofText text).mapError DocumentError.ofXml

end SvgDisplayList
