import SvgDisplayList.Geometry.TransformList
import SvgDisplayList.Image.DataUri
import SvgDisplayList.PathData.Scanner
import SvgDisplayList.Text.Quoted

/-!
# Diagnostics

What is wrong with a single element does not end a translation: the element is skipped, and a
diagnostic tells why.  Diagnostics also tell of identifiers used twice and of features that are
recognised but have no effect.
-/

namespace SvgDisplayList

/-- Why an element is not drawn, or not as it asks. -/
inductive ElementError where
  | invalidPath (error : PathError)
  | invalidTransform (error : TransformError)
  | missingAttribute (name : String)
  | invalidAttribute (name value : String)
  | unresolvedReference (id : String)
  | referenceCycle (id : String)
  | reuseTooDeep (limit : Nat)
  | image (error : ImageError)
  | gradientWithoutStops (id : String)
  | unsupportedElement (name : String)
deriving DecidableEq, Repr

namespace ElementError

def message : ElementError → String
  | invalidPath e => "invalid path data: " ++ e.message
  | invalidTransform e => "invalid transform: " ++ e.message
  | missingAttribute name => "missing required attribute '" ++ name ++ "'"
  | invalidAttribute name value =>
    "invalid value for attribute '" ++ name ++ "': " ++ Text.quoted value
  | unresolvedReference id => "reference to unknown id '#" ++ id ++ "'"
  | referenceCycle id => "reference cycle through '#" ++ id ++ "'"
  | reuseTooDeep limit => "reuse nesting deeper than " ++ toString limit ++ " levels"
  | image e => "embedded image: " ++ e.message
  | gradientWithoutStops id => "gradient '#" ++ id ++ "' has no stops"
  | unsupportedElement name => "unsupported element <" ++ name ++ ">"

end ElementError

/-- How much a diagnostic matters. -/
inductive Severity where
  | info
  | warning
deriving DecidableEq, Repr

namespace Severity

def name : Severity → String
  | info => "info"
  | warning => "warning"

end Severity

/-- Something recovered from. -/
inductive Diagnostic where
  | element (tag : String) (id? : Option String) (error : ElementError)
  | definitionConflict (id previous replacement : String)
  | unsupportedFeature (tag feature : String)
deriving DecidableEq, Repr

namespace Diagnostic

def severity : Diagnostic → Severity
  | element .. => .warning
  | definitionConflict .. => .warning
  | unsupportedFeature .. => .info

/-- The name of the kind of a diagnostic. -/
def kind : Diagnostic → String
  | element .. => "element"
  | definitionConflict .. => "definition_conflict"
  | unsupportedFeature .. => "unsupported_feature"

def message : Diagnostic → String
  | element tag (some id) error => "<" ++ tag ++ " id=\"" ++ id ++ "\">: " ++ error.message
  | element tag none error => "<" ++ tag ++ ">: " ++ error.message
  | definitionConflict id previous replacement =>
    "duplicate id '" ++ id ++ "': <" ++ replacement ++ "> replaces earlier <" ++ previous ++ ">"
  | unsupportedFeature tag feature =>
    "<" ++ tag ++ ">: " ++ feature ++ " is not supported and was ignored"

end Diagnostic

end SvgDisplayList
