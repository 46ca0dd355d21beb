import Mathlib.Logic.Relation
import SvgDisplayList.Compiler
import SvgDisplayList.Proofs.Log.Journal
import SvgDisplayList.Proofs.Session.Signal

/-!
# Translations at the same time

The documents of a batch are translated at the same time.  Each of them is a flight: it is
translated, is noted in the log of diagnostics and then timed in the log of performance, and for
either log it waits until it can take it.  Flights move one after another in any order
(`Log.Step`), and may hold each other up at the logs only.

Each move of a flight is a move of a writer in both logs (`Log.Flight.Move.notes`,
`Log.Flight.Move.timings`).  So both logs are kept well all along (`Log.Kept.run`), and when all
flights have come down, the translations have been added to each log one at a time, in an order that
may be another one for each log (`Log.Performs.exists_orders`).
-/

namespace SvgDisplayList

/-- What the translation of a document may come to: its one result, unless somebody aborts it. -/
def Settings.MayAnswer (settings : Settings) (text : String)
    (result : Except DocumentError Translation) : Prop :=
  result = settings.translateUnwatched text ∨ result = .error .aborted

namespace Log

/-- How far the translation of a document has come. -/
inductive Phase where
  | waiting
  | translated (result : Except DocumentError Translation)
  /-- It has taken the log of diagnostics, and some lines are still to be written. -/
  | noting (result : Except DocumentError Translation) (rest : List String)
  | noted (result : Except DocumentError Translation)
  /-- It has taken the log of performance, and some lines are still to be written. -/
  | timing (result : Except DocumentError Translation) (rest : List String)
  | finished (result : Except DocumentError Translation)

/-- The result of the translation, once there is one. -/
def Phase.result? : Phase → Option (Except DocumentError Translation)
  | waiting => none
  | translated result => some result
  | noting result _ => some result
  | noted result => some result
  | timing result _ => some result
  | finished result => some result

/-- The translation of a document on its way. -/
structure Flight where
  id : DocumentId
  document : TimedDocument
  phase : Phase

/-- What the flights share: the two logs, and whether one of them has taken them. -/
structure Desk where
  notes : List String
  notesTaken : Bool
  performance : Performance
  performanceTaken : Bool

namespace Desk

/-- The desk before the first translation. -/
def empty : Desk := ⟨[], false, .empty, false⟩

/-- Nobody has taken a log. -/
structure Free (s : Desk) : Prop where
  notes : s.notesTaken = false
  performance : s.performanceTaken = false

end Desk

namespace Flight

/-- What is written down about a flight with some result. -/
def record (f : Flight) (result : Except DocumentError Translation) : Record :=
  ⟨f.id, f.document.milliseconds, result⟩

/-- Where a flight stands with the log of diagnostics. -/
def noteTurn (f : Flight) : Turn :=
  match f.phase with
  | .waiting => .before
  | .translated _ => .before
  | .noting result rest => .writing (f.record result) rest
  | .noted result => .after (f.record result)
  | .timing result _ => .after (f.record result)
  | .finished result => .after (f.record result)

/-- Where a flight stands with the log of performance. -/
def timingTurn (f : Flight) : Turn :=
  match f.phase with
  | .timing result rest => .writing (f.record result) rest
  | .finished result => .after (f.record result)
  | _ => .before

/-- What a flight does at once. -/
inductive Move (settings : Settings) : Flight × Desk → Flight × Desk → Prop
  | translate (id : DocumentId) (d : TimedDocument) (s : Desk)
      (result : Except DocumentError Translation) (h : settings.MayAnswer d.text result) :
    Move settings (⟨id, d, .waiting⟩, s) (⟨id, d, .translated result⟩, s)
  /-- A failure is not noted. -/
  | skipNotes (id : DocumentId) (d : TimedDocument) (s : Desk) (e : DocumentError) :
    Move settings (⟨id, d, .translated (.error e)⟩, s) (⟨id, d, .noted (.error e)⟩, s)
  | takeNotes (id : DocumentId) (d : TimedDocument) (s : Desk) (t : Translation)
      (h : s.notesTaken = false) :
    Move settings (⟨id, d, .translated (.ok t)⟩, s)
      (⟨id, d, .noting (.ok t) (diagnosticBlock id t)⟩, { s with notesTaken := true })
  | writeNote (id : DocumentId) (d : TimedDocument) (s : Desk)
      (result : Except DocumentError Translation) (line : String) (lines : List String) :
    Move settings (⟨id, d, .noting result (line :: lines)⟩, s)
      (⟨id, d, .noting result lines⟩, { s with notes := s.notes ++ [line] })
  | leaveNotes (id : DocumentId) (d : TimedDocument) (s : Desk)
      (result : Except DocumentError Translation) :
    Move settings (⟨id, d, .noting result []⟩, s)
      (⟨id, d, .noted result⟩, { s with notesTaken := false })
  /-- The totals are counted as soon as the log is taken. -/
  | takePerformance (id : DocumentId) (d : TimedDocument) (s : Desk)
      (result : Except DocumentError Translation) (h : s.performanceTaken = false) :
    Move settings (⟨id, d, .noted result⟩, s)
      (⟨id, d, .timing result (timings.lines ⟨id, d.milliseconds, result⟩)⟩,
        { s with
          performance := timings.enter s.performance ⟨id, d.milliseconds, result⟩
          performanceTaken := true })
  | writeTiming (id : DocumentId) (d : TimedDocument) (s : Desk)
      (result : Except DocumentError Translation) (line : String) (lines : List String) :
    Move settings (⟨id, d, .timing result (line :: lines)⟩, s)
      (⟨id, d, .timing result lines⟩,
        { s with performance := timings.write s.performance [line] })
  | leavePerformance (id : DocumentId) (d : TimedDocument) (s : Desk)
      (result : Except DocumentError Translation) :
    Move settings (⟨id, d, .timing result []⟩, s)
      (⟨id, d, .finished result⟩, { s with performanceTaken := false })

namespace Move

variable {settings : Settings} {f f' : Flight} {s s' : Desk}

/-- In the log of diagnostics a flight moves as a writer. -/
lemma notes (h : Move settings (f, s) (f', s')) :
    Log.notes.Move (f.noteTurn, s.notesTaken, s.notes)
      (f'.noteTurn, s'.notesTaken, s'.notes) := by
  cases h with
  | translate => exact .rest _
  | skipNotes id d s e =>
    exact .pass ⟨id, d.milliseconds, .error e⟩ _ _ fun b => notes_add_error b _ _ e
  | takeNotes id d s t hfree =>
    rw [hfree]
    exact .take ⟨id, d.milliseconds, .ok t⟩ _
  | writeNote id d s result line lines => exact .write ⟨id, d.milliseconds, result⟩ _ _ _ _
  | leaveNotes id d s result => exact .leave ⟨id, d.milliseconds, result⟩ _ _
  | takePerformance => exact .rest _
  | writeTiming => exact .rest _
  | leavePerformance => exact .rest _

/-- In the log of performance a flight moves as a writer. -/
lemma timings (h : Move settings (f, s) (f', s')) :
    Log.timings.Move (f.timingTurn, s.performanceTaken, s.performance)
      (f'.timingTurn, s'.performanceTaken, s'.performance) := by
  cases h with
  | translate => exact .rest _
  | skipNotes => exact .rest _
  | takeNotes => exact .rest _
  | writeNote => exact .rest _
  | leaveNotes => exact .rest _
  | takePerformance id d s result hfree =>
    rw [hfree]
    exact .take ⟨id, d.milliseconds, result⟩ _
  | writeTiming id d s result line lines => exact .write ⟨id, d.milliseconds, result⟩ _ _ _ _
  | leavePerformance id d s result => exact .leave ⟨id, d.milliseconds, result⟩ _ _

/-- A flight keeps its number and its document. -/
lemma same (h : Move settings (f, s) (f', s')) : f'.id = f.id ∧ f'.document = f.document := by
  cases h <;> exact ⟨rfl, rfl⟩

/-- A result is one that the document may have. -/
lemma mayAnswer (h : Move settings (f, s) (f', s'))
    (hf : ∀ result ∈ f.phase.result?, settings.MayAnswer f.document.text result) :
    ∀ result ∈ f'.phase.result?, settings.MayAnswer f'.document.text result := by
  cases h with
  | translate id d s result hresult =>
    intro result' hresult'
    cases hresult'
    exact hresult
  | skipNotes => exact hf
  | takeNotes => exact hf
  | writeNote => exact hf
  | leaveNotes => exact hf
  | takePerformance => exact hf
  | writeTiming => exact hf
  | leavePerformance => exact hf

end Move

end Flight

/-- One of some flights moves. -/
inductive Step (settings : Settings) : List Flight × Desk → List Flight × Desk → Prop
  | move (before after : List Flight) {f f' : Flight} {s s' : Desk}
      (h : Flight.Move settings (f, s) (f', s')) :
    Step settings (before ++ f :: after, s) (before ++ f' :: after, s')

/-- Both logs are kept well, the flights still have the numbers and documents that they started
with, and the results are some that these documents may have. -/
structure Kept (settings : Settings) (documents : List (DocumentId × TimedDocument)) (start : Desk)
    (x : List Flight × Desk) : Prop where
  notes : Log.notes.Kept start.notes (x.1.map Flight.noteTurn) x.2.notesTaken x.2.notes
  timings : Log.timings.Kept start.performance (x.1.map Flight.timingTurn) x.2.performanceTaken
    x.2.performance
  documents : x.1.map (fun f => (f.id, f.document)) = documents
  results : ∀ f ∈ x.1, ∀ result ∈ f.phase.result?, settings.MayAnswer f.document.text result

namespace Kept

variable {settings : Settings} {documents : List (DocumentId × TimedDocument)} {start : Desk}
  {x x' : List Flight × Desk}

/-- A step leaves all in order. -/
theorem step (h : Kept settings documents start x) (hstep : Step settings x x') :
    Kept settings documents start x' := by
  obtain ⟨hnotes, htimings, hdocuments, hresults⟩ := h
  cases hstep with
  | move before after hmove =>
    dsimp only at hnotes htimings hdocuments hresults
    rw [List.map_append, List.map_cons] at hnotes htimings hdocuments
    refine ⟨?_, ?_, ?_, ?_⟩
    · rw [List.map_append, List.map_cons]
      exact hnotes.move hmove.notes
    · rw [List.map_append, List.map_cons]
      exact htimings.move hmove.timings
    · rw [List.map_append, List.map_cons, hmove.same.1, hmove.same.2]
      exact hdocuments
    · intro g hg
      rw [List.mem_append, List.mem_cons] at hg
      rcases hg with hg | rfl | hg
      · exact hresults g (List.mem_append_left _ hg)
      · exact hmove.mayAnswer (hresults _ (List.mem_append_right _ List.mem_cons_self))
      · exact hresults g (List.mem_append_right _ (List.mem_cons_of_mem _ hg))

/-- However many steps are taken, all stays in order. -/
theorem run (h : Kept settings documents start x)
    (hsteps : Relation.ReflTransGen (Step settings) x x') : Kept settings documents start x' := by
  induction hsteps with
  | refl => exact h
  | tail _ hstep ih => exact ih.step hstep

end Kept

/-! ## Calls -/

/-- A call of a compiler. -/
inductive Call where
  | translate (d : TimedDocument)
  | batch (ds : List TimedDocument)

/-- The documents of a call with their numbers. -/
def Call.documents : Call → List (DocumentId × TimedDocument)
  | translate d => [(none, d)]
  | batch ds => ds.zipIdx.map fun (d, i) => (some i, d)

/-- A record is one of a document with its number. -/
structure Record.Fits (settings : Settings) (x : DocumentId × TimedDocument) (r : Record) :
    Prop where
  id : r.id = x.1
  time : r.time = x.2.milliseconds
  result : settings.MayAnswer x.2.text r.result

end Log

end SvgDisplayList
