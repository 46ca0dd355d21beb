import SvgDisplayList.Proofs.Drawing.Faults
import SvgDisplayList.Proofs.Walk.Document

/-!
# What a step can do

`Stage.Step` lists what a task can do to a state, with all that is true when it does so;
`Stage.step_perform` says that there is nothing else.  Facts about every moment of a walk are proved
from this list: what holds at the start and is kept by each of its cases holds at every moment
(`Settings.walk_induction`).  A step adds to what has been drawn and reported, and it adds behind it
(`Stage.Step.grows`); so at any later moment the drawing is what it was and more
(`Settings.grows_walk`).
-/

namespace SvgDisplayList

/-- Whether a task ends something that has been begun. -/
def Task.ends : Task → Bool
  | .leave .. | .endUse .. => true
  | _ => false

/-- A drawing is what another one was, and more behind it. -/
def Drawing.Grows (d d' : Drawing) : Prop := ∃ more, d' = d ++ more

namespace Drawing.Grows

variable {d d' d'' : Drawing}

/-- A drawing to which nothing is added. -/
lemma refl (d : Drawing) : d.Grows d := ⟨.empty, (append_empty d).symm⟩

/-- A drawing to which something is added twice. -/
lemma trans (h : d.Grows d') (h' : d'.Grows d'') : d.Grows d'' := by
  obtain ⟨more, rfl⟩ := h
  obtain ⟨more', rfl⟩ := h'
  exact ⟨more ++ more', append_assoc d more more'⟩

/-- What was reported is the beginning of what is reported. -/
lemma diagnostics_prefix (h : d.Grows d') : d.diagnostics <+: d'.diagnostics := by
  obtain ⟨more, rfl⟩ := h
  exact List.prefix_append _ _

end Drawing.Grows

namespace Stage

/-- What a task can do to the state behind it. -/
inductive Step (stage : Stage) (w : Walk) : Task → Walk → Prop where
  /-- Something is drawn and done with. -/
  | draw {t : Task} {d : Drawing} (ht : t.ends = false) (hd : d.ReportsOwn) :
      Step stage w t (w.draw d)
  /-- An element is entered. -/
  | enter {tag : Xml.Tag} {children : List Xml.Node} {ancestors : List Xml.Tag}
      {style style' : Style} {m : Matrix} {d : Drawing} (hd : d.ReportsOwn) :
      Step stage w (.node (.element tag children) ancestors style)
        (((w.draw d).push m).plan [.content ⟨tag, children⟩ ancestors style', .leave tag ancestors])
  /-- A symbol is entered. -/
  | symbol {e : Xml.Element} {ancestors : List Xml.Tag} {style style' : Style}
      {width height : Option Float32} {m : Matrix} {d : Drawing} (hd : d.ReportsOwn) :
      Step stage w (.symbol e ancestors style width height)
        (((w.draw d).push m).plan
          (Task.nodes e.children (e.tag :: ancestors) style' ++ [.leave e.tag ancestors]))
  /-- Children are to be drawn. -/
  | children {e : Xml.Element} {ancestors : List Xml.Tag} {style : Style} {ns : List Xml.Node}
      (hns : ns ⊆ e.children) :
      Step stage w (.content e ancestors style) (w.plan (Task.nodes ns (e.tag :: ancestors) style))
  /-- A use is expanded. -/
  | expand {e : Xml.Element} {ancestors : List Xml.Tag} {style : Style} {x : Expansion}
      (hkind : ElementKind.ofTag e.tag = .use)
      (hx : stage.expansion e.tag ancestors style w.chain = .ok x) :
      Step stage w (.content e ancestors style)
        (({ w with chain := x.id :: w.chain }.push (.translate x.x x.y)).plan
          [x.task style, .endUse x.id x.target.tag])
  /-- A use is faulty. -/
  | fault {e : Xml.Element} {ancestors : List Xml.Tag} {style : Style} {err : ElementError}
      (hkind : ElementKind.ofTag e.tag = .use)
      (hx : stage.expansion e.tag ancestors style w.chain = .error err) :
      Step stage w (.content e ancestors style) (w.draw (.reports [Drawing.fault e.tag err]))
  /-- An element is left. -/
  | leave {tag : Xml.Tag} {ancestors : List Xml.Tag} : Step stage w (.leave tag ancestors) w.pop
  /-- A use ends. -/
  | endUse {id : String} {target : Xml.Tag} :
      Step stage w (.endUse id target) { w.pop with chain := w.chain.tail }

namespace Step

variable {stage : Stage} {w : Walk}

/-- A task that does nothing. -/
lemma skip {t : Task} (ht : t.ends = false) : stage.Step w t w := by
  have hstep : stage.Step w t (w.draw .empty) := .draw ht fun _ _ _ h => by cases h
  rwa [Walk.draw_empty] at hstep

/-- An element that cannot be entered is its reports. -/
lemma enterWalk {t : Task} {tag : Xml.Tag} {style : Style} {tasks : Style → Matrix → Walk → Walk}
    (ht : t.ends = false)
    (h : ∀ style' m d, d.ReportsOwn → stage.Step w t (tasks style' m (w.draw d))) :
    stage.Step w t (stage.enterWalk w tag style tasks) := by
  have hreports := reportsOwn_entryReports tag
  unfold Stage.enterWalk
  cases stage.entered? tag style with
  | none => exact .draw ht hreports
  | some entered => exact h _ _ _ hreports

end Step

/-- A task does nothing that is not in the list. -/
theorem step_perform (stage : Stage) (w : Walk) (t : Task) :
    stage.Step w t (stage.perform w t) := by
  cases t with
  | node n ancestors style =>
    cases n with
    | text s => exact .skip rfl
    | element tag children =>
      simp only [perform]
      split
      · rename_i d haside
        exact .draw rfl (reportsOwn_aside haside)
      · exact .enterWalk rfl fun _ _ _ hd => .enter hd
  | content e ancestors style =>
    simp only [perform]
    split
    · exact .children (List.Subset.refl _)
    · refine .children fun c hc => ?_
      exact List.mem_of_find?_eq_some (Option.mem_toList.mp hc)
    · exact .draw rfl (stage.reportsOwn_shape _ _ _)
    · exact .draw rfl (stage.reportsOwn_text _ _)
    · exact .draw rfl (stage.reportsOwn_image _ _)
    · rename_i hkind
      split
      · rename_i err hx
        exact .fault hkind hx
      · rename_i x hx
        exact .expand hkind hx
    · exact .skip rfl
  | symbol e ancestors style width height =>
    simp only [perform]
    exact .enterWalk rfl fun _ _ _ hd => .symbol hd
  | leave tag ancestors => exact .leave
  | endUse id target => exact .endUse

/-- A step adds behind what has been drawn and reported. -/
lemma Step.grows {stage : Stage} {w w' : Walk} {t : Task} (h : stage.Step w t w') :
    w.drawn.Grows w'.drawn := by
  cases h with
  | draw | enter | symbol | fault => exact ⟨_, rfl⟩
  | children | expand | leave | endUse => exact .refl _

/-- The next step adds behind what has been drawn and reported. -/
lemma grows_advance (stage : Stage) (w : Walk) : w.drawn.Grows (stage.advance w).drawn := by
  obtain ⟨matrices, chain, drawn, agenda⟩ := w
  cases agenda with
  | nil => exact .refl _
  | cons t ts => exact (stage.step_perform ⟨matrices, chain, drawn, ts⟩ t).grows

end Stage

/-- What holds at the start of the walk over a document and is kept by every task holds at every
moment. -/
theorem Settings.walk_induction {settings : Settings} {root : Xml.Element} {p : Walk → Prop}
    (start : p (Stage.start root (settings.rootPlace root)))
    (step : ∀ w t w', p (w.plan [t]) → (settings.stage root).Step w t w' → p w')
    (moment : Nat) : p (settings.walk root moment) := by
  induction moment with
  | zero => exact start
  | succ moment ih =>
    rw [walk_succ]
    unfold Stage.advance
    split
    · exact ih
    · rename_i t ts hagenda
      refine step _ t _ ?_
        ((settings.stage root).step_perform { settings.walk root moment with agenda := ts } t)
      have hplan : { settings.walk root moment with agenda := ts }.plan [t] =
          settings.walk root moment := by
        unfold Walk.plan
        rw [List.singleton_append, ← hagenda]
      rwa [hplan]

/-! ## The end of the walk -/

namespace Settings

variable (settings : Settings) (root : Xml.Element)

/-- From one moment to a later one, something is added behind what has been drawn and reported. -/
theorem grows_walk {moment later : Nat} (hle : moment ≤ later) :
    (settings.walk root moment).drawn.Grows (settings.walk root later).drawn := by
  induction hle with
  | refl => exact .refl _
  | step _ ih =>
    rw [walk_succ]
    exact ih.trans ((settings.stage root).grows_advance _)

variable {root}

/-- The walk rests when there is nothing left to do. -/
lemma walk_add_of_agenda_eq_nil {moment : Nat} (h : (settings.walk root moment).agenda = [])
    (later : Nat) :
    settings.walk root (moment + later) = settings.walk root moment := by
  induction later with
  | zero => rfl
  | succ later ih =>
    rw [← Nat.add_assoc, walk_succ, ih]
    unfold Stage.advance
    rw [h]

/-- When there is nothing left to do, the document is drawn. -/
lemma drawn_eq_of_agenda_eq_nil {moment : Nat} (h : (settings.walk root moment).agenda = []) :
    (settings.walk root moment).drawn = settings.drawing root := by
  obtain ⟨last, hlast⟩ := settings.exists_walk_done root
  have hagenda : (settings.walk root last).agenda = [] := by rw [hlast]
  have hsame : settings.walk root moment = settings.walk root last := by
    rw [← settings.walk_add_of_agenda_eq_nil h last, Nat.add_comm,
      settings.walk_add_of_agenda_eq_nil hagenda]
  rw [hsame, hlast]

variable (root)

/-- Whatever is reported at some moment is reported by the drawing. -/
lemma diagnostics_subset_drawing (moment : Nat) :
    (settings.walk root moment).drawn.diagnostics ⊆ (settings.drawing root).diagnostics := by
  obtain ⟨last, hlast⟩ := settings.exists_walk_done root
  have hagenda : (settings.walk root last).agenda = [] := by rw [hlast]
  have hgrows := settings.grows_walk root (Nat.le_add_left moment last)
  rw [settings.walk_add_of_agenda_eq_nil hagenda, hlast] at hgrows
  exact hgrows.diagnostics_prefix.subset

end Settings

end SvgDisplayList
