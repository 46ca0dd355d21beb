import Mathlib.Data.List.Perm.Basic
import Mathlib.Tactic.Lemma
import SvgDisplayList.Log.Performance

/-!
# Journals

Several writers keep a journal together.  A writer takes it, writes the lines of a record one after
the other and leaves it, and meanwhile no other writer can take it.  So the lines of a record stay
together whatever happens in between: when all writers are through, the journal is as if their
records had been added one at a time in some order (`Journal.Kept.content_of_after`).  This holds
from the start, and each move of a writer keeps it (`Journal.Kept.move`).

The logs of diagnostics and of performance are both such journals (`Log.notes`, `Log.timings`).
-/

namespace SvgDisplayList

namespace Log

/-- A translation that has come to its end. -/
structure Record where
  id : DocumentId
  /-- The time that it took, in milliseconds. -/
  time : Float
  result : Except DocumentError Translation

/-- How records are written down. -/
structure Journal (α : Type) where
  /-- The lines of a record. -/
  lines : Record → List String
  /-- The journal when a record is counted and its lines are not yet written. -/
  enter : α → Record → α
  /-- The journal with more lines. -/
  write : α → List String → α
  write_nil : ∀ a, write a [] = a
  write_append : ∀ a ls ls', write (write a ls) ls' = write a (ls ++ ls')

/-- Where a writer stands with a journal. -/
inductive Turn where
  | before
  /-- The journal is taken, and some lines are still to be written. -/
  | writing (record : Record) (rest : List String)
  | after (record : Record)

namespace Turn

/-- Whether the writer has taken the journal. -/
def isWriting : Turn → Bool
  | writing _ _ => true
  | _ => false

/-- The lines that the writer still has to write. -/
def rest : Turn → List String
  | writing _ rest => rest
  | _ => []

/-- The record that the writer has entered. -/
def record? : Turn → Option Record
  | before => none
  | writing r _ => some r
  | after r => some r

/-- Where nobody is writing, no lines are left to be written. -/
lemma flatMap_rest_of_idle {turns : List Turn} (h : turns.countP isWriting = 0) :
    turns.flatMap rest = [] := by
  rw [List.flatMap_eq_nil_iff]
  intro turn hturn
  have hidle : ¬ turn.isWriting = true := List.countP_eq_zero.mp h turn hturn
  cases turn with
  | writing r ls => exact absurd rfl hidle
  | before => rfl
  | after r => rfl

/-- The number of those who write, one turn taken out. -/
lemma countP_isWriting_middle (before after : List Turn) (turn : Turn) :
    (before ++ turn :: after).countP isWriting =
      (before ++ after).countP isWriting + turn.isWriting.toNat := by
  rw [List.countP_append, List.countP_cons, List.countP_append]
  cases turn.isWriting <;> simp [Nat.add_assoc]

/-- Beside one who writes nobody does, if a single one may. -/
lemma idle_beside_writing {before after : List Turn} {r : Record} {lines : List String}
    {taken : Bool}
    (h : (before ++ writing r lines :: after).countP isWriting = taken.toNat) :
    (before ++ after).countP isWriting = 0 := by
  have hone := Bool.toNat_le taken
  rw [countP_isWriting_middle, isWriting, Bool.toNat_true] at h
  omega

end Turn

namespace Journal

variable {α : Type} (journal : Journal α)

/-- The journal with a record more. -/
def add (a : α) (r : Record) : α := journal.write (journal.enter a r) (journal.lines r)

/-- What a writer does at once.  Besides its turn this concerns whether the journal is taken and
what stands in it. -/
inductive Move : Turn × Bool × α → Turn × Bool × α → Prop
  /-- The writer does something else. -/
  | rest (x : Turn × Bool × α) : Move x x
  | take (r : Record) (a : α) :
    Move (.before, false, a) (.writing r (journal.lines r), true, journal.enter a r)
  | write (r : Record) (line : String) (lines : List String) (taken : Bool) (a : α) :
    Move (.writing r (line :: lines), taken, a) (.writing r lines, taken, journal.write a [line])
  | leave (r : Record) (taken : Bool) (a : α) :
    Move (.writing r [], taken, a) (.after r, false, a)
  /-- The writer passes a record over that would leave no trace. -/
  | pass (r : Record) (taken : Bool) (a : α) (h : ∀ b, journal.add b r = b) :
    Move (.before, taken, a) (.after r, taken, a)

/-- A journal is kept well: nobody writes unless it is taken, and one writer does if it is; and once
this writer is through, it is as if the records had been added one at a time. -/
structure Kept (start : α) (turns : List Turn) (taken : Bool) (a : α) : Prop where
  writers : turns.countP Turn.isWriting = taken.toNat
  content : ∃ order : List Record, order.Perm (turns.filterMap Turn.record?) ∧
    journal.write a (turns.flatMap Turn.rest) = order.foldl journal.add start

variable {journal}

/-- A record that is added last may have any place among the others. -/
lemma perm_concat {order before after : List Record} (h : order.Perm (before ++ after))
    (r : Record) : (order ++ [r]).Perm (before ++ r :: after) :=
  (h.append_right [r]).trans
    (List.perm_append_singleton r _ |>.trans List.perm_middle.symm)

/-- The journal once this writer is through, if nobody else is writing. -/
lemma write_rest {before after : List Turn} (h : (before ++ after).countP Turn.isWriting = 0)
    (turn : Turn) (a : α) :
    journal.write a ((before ++ turn :: after).flatMap Turn.rest) = journal.write a turn.rest := by
  rw [List.countP_append, Nat.add_eq_zero_iff] at h
  rw [List.flatMap_append, List.flatMap_cons, Turn.flatMap_rest_of_idle h.1,
    Turn.flatMap_rest_of_idle h.2, List.append_nil, List.nil_append]

/-- Each move of a writer leaves a journal kept well. -/
theorem Kept.move {start : α} {before after : List Turn} {turn turn' : Turn} {taken taken' : Bool}
    {a a' : α} (h : journal.Kept start (before ++ turn :: after) taken a)
    (hmove : journal.Move (turn, taken, a) (turn', taken', a')) :
    journal.Kept start (before ++ turn' :: after) taken' a' := by
  obtain ⟨hwriters, order, hperm, hcontent⟩ := h
  rw [List.filterMap_append] at hperm
  cases hmove with
  | rest => exact ⟨hwriters, order, by rwa [List.filterMap_append], hcontent⟩
  | take r =>
    -- Nobody writes yet, so the records before are complete.
    have hidle : (before ++ after).countP Turn.isWriting = 0 := by
      rwa [Turn.countP_isWriting_middle] at hwriters
    rw [write_rest hidle] at hcontent
    replace hcontent : a = order.foldl journal.add start :=
      (journal.write_nil a).symm.trans hcontent
    refine ⟨?_, order ++ [r], ?_, ?_⟩
    · rw [Turn.countP_isWriting_middle, hidle]
      rfl
    · rw [List.filterMap_append]
      exact perm_concat hperm r
    · rw [write_rest hidle, List.foldl_append, ← hcontent]
      rfl
  | write r line lines =>
    have hidle := Turn.idle_beside_writing hwriters
    refine ⟨?_, order, ?_, ?_⟩
    · rw [Turn.countP_isWriting_middle] at hwriters ⊢
      exact hwriters
    · rw [List.filterMap_append]
      exact hperm
    · rw [write_rest hidle, ← hcontent, write_rest hidle]
      exact journal.write_append a [line] lines
  | leave r =>
    have hidle := Turn.idle_beside_writing hwriters
    refine ⟨?_, order, ?_, ?_⟩
    · rw [Turn.countP_isWriting_middle, hidle]
      rfl
    · rw [List.filterMap_append]
      exact hperm
    · rw [← hcontent, write_rest hidle, write_rest hidle]
      rfl
  | pass r _ _ hpass =>
    refine ⟨?_, order ++ [r], ?_, ?_⟩
    · rw [Turn.countP_isWriting_middle] at hwriters ⊢
      exact hwriters
    · rw [List.filterMap_append]
      exact perm_concat hperm r
    · have hrest : (before ++ Turn.after r :: after).flatMap Turn.rest =
          (before ++ Turn.before :: after).flatMap Turn.rest := by
        rw [List.flatMap_append, List.flatMap_append]
        rfl
      rw [hrest, List.foldl_append, ← hcontent]
      exact (hpass _).symm

end Journal

/-! ## The two logs -/

/-- The log of diagnostics.  A translation that failed leaves no trace in it. -/
def notes : Journal (List String) where
  lines r :=
    match r.result with
    | .ok t => diagnosticBlock r.id t
    | .error _ => []
  enter a _ := a
  write a lines := a ++ lines
  write_nil := List.append_nil
  write_append := List.append_assoc

/-- The log of performance. -/
def timings : Journal Performance where
  lines r :=
    match r.result with
    | .ok t => [Performance.spanLine Performance.completedName r.id r.time,
        Performance.sizesLine r.id t]
    | .error _ => [Performance.spanLine Performance.failedName r.id r.time]
  enter p r := { p.add r.id r.time r.result.toOption with lines := p.lines }
  write p lines := { p with lines := p.lines ++ lines }
  write_nil p := by rw [List.append_nil]
  write_append p lines lines' := by rw [List.append_assoc]

/-- A translation that failed is passed over in the log of diagnostics. -/
lemma notes_add_error (a : List String) (id : DocumentId) (time : Float) (e : DocumentError) :
    notes.add a ⟨id, time, .error e⟩ = a :=
  List.append_nil a

/-- A record in the log of performance is what the log makes of the translation. -/
lemma timings_add (p : Performance) (r : Record) :
    timings.add p r = p.add r.id r.time r.result.toOption := by
  obtain ⟨id, time, result⟩ := r
  cases result <;> rfl

end Log

end SvgDisplayList
