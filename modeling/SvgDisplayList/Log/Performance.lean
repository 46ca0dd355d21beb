import SvgDisplayList.Keyed
import SvgDisplayList.Log.Diagnostics
import SvgDisplayList.Number.Binary32
import SvgDisplayList.Text.FileName

/-!
# The log of performance

Every translation adds a line with the time it took, and a completed one a second line with the
sizes of its results.  The totals are kept beside the lines: of the time, for translations that were
completed and those that failed, and of the sizes.  They make up a second log at the end, in which
the outcome that took most time comes first.

Times are milliseconds in double precision.  They are added and divided in it, so that totals are
rounded at every translation, and written with three places.  Counters stop at the greatest number
of sixty-four bits.
-/

namespace SvgDisplayList

namespace Log

/-- The greatest value of a counter. -/
def counterLimit : Nat := 0xffffffffffffffff

/-- The sum of two counters. -/
def addCounters (a b : Nat) : Nat := min (a + b) counterLimit

/-- A time with three places, an exact half rounded to the even one. -/
def millisecondsText (ms : Float) : String :=
  match Binary64.parts? ms with
  | some p =>
    let thousandths := roundHalfEven (1000 * p.ratio.1) p.ratio.2
    let places := toString (thousandths % 1000)
    let zeros := String.ofList (List.replicate (3 - places.length) '0')
    (if p.negative then "-" else "") ++ toString (thousandths / 1000) ++ "." ++ zeros ++ places
  | none => if ms.isNaN then "NaN" else if ms < 0 then "-inf" else "inf"

/-- The sizes of a translation by their names. -/
def sizes (t : Translation) : List (String × Nat) :=
  [("commands", t.drawing.commands.length), ("diagnostics", t.drawing.diagnostics.length),
   ("definitions", t.definitions.total)]

/-- The time that the translations of one outcome took. -/
structure Timing where
  total : Float
  runs : Nat
  slowest : Float
  slowestId : DocumentId

namespace Timing

/-- The timing of one translation. -/
def once (id : DocumentId) (ms : Float) : Timing := ⟨0 + ms, 1, ms, id⟩

/-- The timing with one translation more. -/
def add (t : Timing) (id : DocumentId) (ms : Float) : Timing :=
  { total := t.total + ms
    runs := addCounters t.runs 1
    slowest := if t.slowest < ms then ms else t.slowest
    slowestId := if t.slowest < ms then id else t.slowestId }

end Timing

/-- The lines written so far, and the totals. -/
structure Performance where
  lines : List String
  completed? : Option Timing
  failed? : Option Timing
  totals : Keyed Nat

namespace Performance

def empty : Performance := ⟨[], none, none, []⟩

/-- The name under which completed translations are listed. -/
def completedName : String := "svg.translate"

/-- The name under which failed translations are listed. -/
def failedName : String := "svg.translate_failed"

/-- The line of the time that a translation took. -/
def spanLine (name : String) (id : DocumentId) (ms : Float) : String :=
  JsonString.object
    [("type", JsonString.quote "perf.span"), ("name", JsonString.quote name),
     ("doc_id", idText id), ("unit", JsonString.quote "ms"), ("ms", millisecondsText ms)]

/-- The line of the sizes of a translation. -/
def sizesLine (id : DocumentId) (t : Translation) : String :=
  JsonString.object
    [("type", JsonString.quote "perf.counts"), ("name", JsonString.quote "svg"),
     ("doc_id", idText id), ("counts", countsText (sizes t))]

/-- The timing of an outcome with one translation more. -/
def addTiming (t : Option Timing) (id : DocumentId) (ms : Float) : Option Timing :=
  match t with
  | some t => some (t.add id ms)
  | none => some (.once id ms)

/-- A total with one value more. -/
def addTotal (totals : Keyed Nat) (entry : String × Nat) : Keyed Nat :=
  Keyed.put entry.1 (addCounters ((Keyed.get? totals entry.1).getD 0) entry.2) totals

/-- Logs a translation that took some time. -/
def add (p : Performance) (id : DocumentId) (ms : Float) : Option Translation → Performance
  | some t =>
    { p with
      lines := p.lines ++ [spanLine completedName id ms, sizesLine id t]
      completed? := addTiming p.completed? id ms
      totals := (sizes t).foldl addTotal p.totals }
  | none =>
    { p with
      lines := p.lines ++ [spanLine failedName id ms]
      failed? := addTiming p.failed? id ms }

/-! ### The totals -/

/-- The outcomes that have occurred, the one that took most time first. -/
def ranking (p : Performance) : List (String × Timing) :=
  let completed := p.completed?.toList.map fun t => (completedName, t)
  let failed := p.failed?.toList.map fun t => (failedName, t)
  match p.completed?, p.failed? with
  | some c, some f =>
    if Binary64.place c.total < Binary64.place f.total then failed ++ completed
    else completed ++ failed
  | _, _ => completed ++ failed

/-- The sizes in alphabetical order. -/
def sizeNames : List String := ["commands", "definitions", "diagnostics"]

/-- The lines of the totals of sizes, which are there once a translation has been completed. -/
def totalLines (p : Performance) : List String :=
  sizeNames.filterMap fun name => (Keyed.get? p.totals name).map fun n =>
    JsonString.object
      [("type", JsonString.quote "perf.hot.count"), ("name", JsonString.quote ("svg." ++ name)),
       ("value", toString n)]

/-- The name of the log of the totals, which lies beside the log of performance. -/
def summaryName (path : String) : String :=
  let stem := FileName.stem (FileName.last path.toList)
  String.ofList (FileName.directory path.toList ++ stem) ++ "_hot.log"

end Performance

end Log

end SvgDisplayList
