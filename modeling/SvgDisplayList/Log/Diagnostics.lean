import SvgDisplayList.Text.JsonString
import SvgDisplayList.Translation

/-!
# The log of diagnostics

Every completed translation adds a block of lines: one for each diagnostic, and a last one that
counts the commands and the diagnostics of each kind.  Each line is a JSON object.
-/

namespace SvgDisplayList

namespace Log

/-- The number of a document in its batch; a document on its own has none. -/
abbrev DocumentId := Option Nat

/-- The number of a document as a JSON value. -/
def idText : DocumentId → String
  | some n => toString n
  | none => "null"

/-- The line of a diagnostic. -/
def diagnosticLine (id : DocumentId) (d : Diagnostic) : String :=
  JsonString.object
    [("type", JsonString.quote "svg.diagnostic"), ("doc_id", idText id),
     ("kind", JsonString.quote d.kind), ("severity", JsonString.quote d.severity.name),
     ("message", JsonString.quote d.message)]

/-- The kinds of diagnostics in alphabetical order. -/
def kinds : List String := ["definition_conflict", "element", "unsupported_feature"]

/-- How many diagnostics there are of each kind that occurs. -/
def kindCounts (ds : List Diagnostic) : List (String × Nat) :=
  (kinds.map fun k => (k, (ds.filter fun d => d.kind == k).length)).filter fun c => c.2 != 0

/-- Counts as a JSON object. -/
def countsText (counts : List (String × Nat)) : String :=
  JsonString.object (counts.map fun (name, n) => (name, toString n))

/-- The last line of a block. -/
def summaryLine (id : DocumentId) (d : Drawing) : String :=
  JsonString.object
    [("type", JsonString.quote "svg.summary"), ("doc_id", idText id),
     ("counts", countsText (("commands", d.commands.length) :: kindCounts d.diagnostics))]

/-- The block of a translation. -/
def diagnosticBlock (id : DocumentId) (t : Translation) : List String :=
  t.drawing.diagnostics.map (diagnosticLine id) ++ [summaryLine id t.drawing]

end Log

end SvgDisplayList
