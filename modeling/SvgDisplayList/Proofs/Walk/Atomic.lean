import SvgDisplayList.Proofs.Walk.Chain
import SvgDisplayList.Proofs.Walk.Fault

/-!
# Elements are drawn one at a time

From the moment at which the walk is about to draw a node to the moment at which it has been drawn,
nothing is done but what the node plans.  In between the stacks only grow, by one matrix for each
element and each use that has been begun and one identifier for each use (`Walk.Within`); every step
keeps this (`Walk.Within.step`), so they are what they were when nothing is left to be ended.  And
what is done does not depend on what is left to do afterwards (`Stage.perform_before`), which is why
the node is done with for the first time when it has been drawn (`Stage.exists_first`).

A drawing that ends in an error never gets further than into the element itself (`Stage.Failing`).
-/

namespace SvgDisplayList

/-! ## What is left to do afterwards -/

namespace Walk

variable (w : Walk) (rest : List Task)

/-- The same state with more left to do afterwards. -/
def before : Walk := { w with agenda := w.agenda ++ rest }

/-- Tasks are planned before all that is left to do. -/
lemma plan_before (ts : List Task) : (w.before rest).plan ts = (w.plan ts).before rest := by
  unfold before plan
  simp only [List.append_assoc]

end Walk

namespace Stage

variable (stage : Stage) {w w' : Walk}

/-- What a task does has nothing to do with what is left to do afterwards. -/
lemma perform_before (w : Walk) (rest : List Task) (t : Task) :
    stage.perform (w.before rest) t = (stage.perform w t).before rest := by
  have henter : ∀ (tag : Xml.Tag) (style : Style) (tasks : Style → Matrix → Walk → Walk),
      (∀ style own w, tasks style own (w.before rest) = (tasks style own w).before rest) →
      stage.enterWalk (w.before rest) tag style tasks =
        (stage.enterWalk w tag style tasks).before rest := by
    intro tag style tasks htasks
    unfold enterWalk
    cases stage.entered? tag style with
    | none => rfl
    | some entered => exact htasks entered.1 entered.2 (w.draw (.reports (entryReports tag)))
  cases t with
  | node n ancestors style =>
    cases n with
    | text s => rfl
    | element tag children =>
      simp only [perform]
      cases aside? tag with
      | some d => rfl
      | none =>
        refine henter tag style _ fun style' own w => ?_
        exact (w.push own).plan_before rest [.content ⟨tag, children⟩ ancestors style', _]
  | content e ancestors style =>
    simp only [perform]
    cases ElementKind.ofTag e.tag with
    | group | switch => exact w.plan_before rest _
    | shape | text | image | definition | unsupported | ignored | unknown => rfl
    | use =>
      have hexpansion : stage.expansion e.tag ancestors style (w.before rest).chain =
          stage.expansion e.tag ancestors style w.chain := rfl
      dsimp only
      rw [hexpansion]
      cases stage.expansion e.tag ancestors style w.chain with
      | error err => rfl
      | ok x =>
        exact ({ w with chain := x.id :: w.chain }.push (.translate x.x x.y)).plan_before rest _
  | symbol e ancestors style width height =>
    simp only [perform]
    refine henter e.tag style _ fun style' own w => ?_
    exact (w.push (own.mul (symbolFit e.tag width height))).plan_before rest _
  | leave tag ancestors => rfl
  | endUse id target => rfl

/-- As long as something is left to do, steps have nothing to do with what is left to do
afterwards. -/
lemma iterate_advance_before (rest : List Task) {j : Nat}
    (h : ∀ i < j, (stage.advance^[i] w).agenda ≠ []) :
    stage.advance^[j] (w.before rest) = (stage.advance^[j] w).before rest := by
  induction j with
  | zero => rfl
  | succ j ih =>
    rw [Function.iterate_succ_apply', Function.iterate_succ_apply',
      ih fun i hi => h i (Nat.lt_succ_of_lt hi)]
    obtain ⟨t, ts, hagenda⟩ := List.exists_cons_of_ne_nil (h j (Nat.lt_succ_self j))
    generalize stage.advance^[j] w = w' at hagenda
    obtain ⟨matrices, chain, drawn, agenda⟩ := w'
    obtain rfl : agenda = t :: ts := hagenda
    exact stage.perform_before ⟨matrices, chain, drawn, ts⟩ rest t

/-- A walk that comes to a state has something left to do until then. -/
lemma exists_first (h : stage.Leads w w') :
    ∃ k, stage.advance^[k] w = w' ∧ ∀ j < k, (stage.advance^[j] w).agenda ≠ [] := by
  obtain ⟨k, hk⟩ := h
  induction k generalizing w with
  | zero => exact ⟨0, hk, fun j hj => absurd hj (Nat.not_lt_zero j)⟩
  | succ k ih =>
    cases hagenda : w.agenda with
    | nil =>
      have hrest : stage.advance w = w := by
        unfold advance
        rw [hagenda]
      rw [Function.iterate_fixed hrest] at hk
      exact ⟨0, hk, fun j hj => absurd hj (Nat.not_lt_zero j)⟩
    | cons t ts =>
      obtain ⟨k', hk', hfirst⟩ := ih hk
      refine ⟨k' + 1, hk', fun j hj => ?_⟩
      cases j with
      | zero => exact fun hnil => by simp [hagenda] at hnil
      | succ j => exact hfirst j (Nat.lt_of_succ_lt_succ hj)

end Stage

/-! ## Stacks and their ends -/

/-- A state on the way from another one, `ts` being what is left to do before the way is over: the
drawing has grown, and on the stacks there is one more matrix for each element and each use that
`ts` ends, and one more identifier for each use. -/
structure Walk.Within (w : Walk) (ts : List Task) (w' : Walk) : Prop where
  agenda : w'.agenda = ts ++ w.agenda
  grows : w.drawn.Grows w'.drawn
  matrices : ∃ ms, w'.matrices = ms ++ w.matrices ∧ ms.length = (ts.filter Task.ends).length
  chain : ∃ ids, w'.chain = ids ++ w.chain ∧ ids.length = (Task.targets ts).length

namespace Walk.Within

variable {stage : Stage} {w w' w'' : Walk} {t : Task} {ts : List Task}

/-- A node is about to be drawn. -/
lemma start (w : Walk) (n : Xml.Node) (ancestors : List Xml.Tag) (style : Style) :
    w.Within [.node n ancestors style] (w.plan [.node n ancestors style]) where
  agenda := rfl
  grows := .refl _
  matrices := ⟨[], rfl, rfl⟩
  chain := ⟨[], rfl, rfl⟩

/-- Something is drawn. -/
lemma draw (h : w.Within ts w') (d : Drawing) : w.Within ts (w'.draw d) where
  agenda := h.agenda
  grows := h.grows.trans ⟨d, rfl⟩
  matrices := h.matrices
  chain := h.chain

/-- A task that ends nothing is taken from the agenda. -/
lemma tail (h : w.Within (t :: ts) (w'.plan [t])) (ht : t.ends = false) : w.Within ts w' := by
  have htarget : t.target? = none := by cases t <;> first | rfl | cases ht
  obtain ⟨ms, hmatrices, hms⟩ := h.matrices
  obtain ⟨ids, hchain, hids⟩ := h.chain
  rw [List.filter_cons_of_neg (by simp [ht])] at hms
  rw [show Task.targets (t :: ts) = Task.targets ts from List.filterMap_cons_none htarget] at hids
  exact ⟨List.tail_eq_of_cons_eq h.agenda, h.grows, ⟨ms, hmatrices, hms⟩, ⟨ids, hchain, hids⟩⟩

/-- Tasks that end nothing are planned. -/
lemma plan (h : w.Within ts w') {us : List Task} (hus : ∀ u ∈ us, u.ends = false) :
    w.Within (us ++ ts) (w'.plan us) := by
  have htargets : Task.targets us = [] := by
    refine List.filterMap_eq_nil_iff.mpr fun u hu => ?_
    have hends := hus u hu
    cases u <;> first | rfl | cases hends
  have hends : us.filter Task.ends = [] :=
    List.filter_eq_nil_iff.mpr fun u hu => by simp [hus u hu]
  have hagenda : (w'.plan us).agenda = us ++ ts ++ w.agenda := by
    rw [List.append_assoc, ← h.agenda]
    rfl
  refine ⟨hagenda, h.grows, ?_, ?_⟩
  · rw [List.filter_append, hends]
    exact h.matrices
  · rw [show Task.targets (us ++ ts) = Task.targets us ++ Task.targets ts from
      List.filterMap_append, htargets]
    exact h.chain

/-- An element is entered, and it will be left. -/
lemma enter (h : w.Within ts w') (m : Matrix) (tag : Xml.Tag) (ancestors : List Xml.Tag) :
    w.Within (.leave tag ancestors :: ts) ((w'.push m).plan [.leave tag ancestors]) := by
  obtain ⟨ms, hmatrices, hms⟩ := h.matrices
  refine ⟨congrArg _ h.agenda, h.grows, ⟨w'.matrix.mul m :: ms, ?_, ?_⟩, h.chain⟩
  · exact congrArg _ hmatrices
  · exact congrArg (· + 1) hms

/-- A use is begun, and it will be ended. -/
lemma begin (h : w.Within ts w') (m : Matrix) (id : String) (target : Xml.Tag) :
    w.Within (.endUse id target :: ts)
      (({ w' with chain := id :: w'.chain }.push m).plan [.endUse id target]) := by
  obtain ⟨ms, hmatrices, hms⟩ := h.matrices
  obtain ⟨ids, hchain, hids⟩ := h.chain
  refine ⟨congrArg _ h.agenda, h.grows, ⟨w'.matrix.mul m :: ms, ?_, ?_⟩, ⟨id :: ids, ?_, ?_⟩⟩
  · exact congrArg _ hmatrices
  · exact congrArg (· + 1) hms
  · exact congrArg _ hchain
  · exact congrArg (· + 1) hids

/-- What has been begun last is ended. -/
lemma pop (h : w.Within (t :: ts) (w'.plan [t])) (ht : t.ends = true) :
    ∃ ms, w'.matrices.tail = ms ++ w.matrices ∧ ms.length = (ts.filter Task.ends).length := by
  obtain ⟨ms, hmatrices, hms⟩ := h.matrices
  rw [List.filter_cons_of_pos ht] at hms
  obtain ⟨m, ms, rfl⟩ := List.exists_cons_of_length_eq_add_one hms
  refine ⟨ms, ?_, Nat.succ.inj hms⟩
  change (w'.plan [t]).matrices.tail = ms ++ w.matrices
  rw [hmatrices]
  rfl

/-- Tasks for nodes end nothing. -/
lemma ends_nodes {ns : List Xml.Node} {ancestors : List Xml.Tag} {style : Style} :
    ∀ u ∈ Task.nodes ns ancestors style, u.ends = false := by
  intro u hu
  obtain ⟨n, -, rfl⟩ := List.mem_map.mp hu
  rfl

/-- Whatever a task does, there is still an end for everything that has been begun. -/
theorem step (h : w.Within (t :: ts) (w'.plan [t])) (hstep : stage.Step w' t w'') :
    ∃ ts', w.Within ts' w'' := by
  have hagenda : w'.agenda = ts ++ w.agenda := List.tail_eq_of_cons_eq h.agenda
  cases hstep with
  | draw ht hd => exact ⟨ts, (h.tail ht).draw _⟩
  | fault hkind hx => exact ⟨ts, (h.tail rfl).draw _⟩
  | @enter tag children ancestors style style' m d hd =>
    have hentered := ((h.tail rfl).draw d).enter m tag ancestors
    have hcontent : ∀ u ∈ [Task.content ⟨tag, children⟩ ancestors style'], u.ends = false := by
      simp [Task.ends]
    exact ⟨_, hentered.plan hcontent⟩
  | @symbol e ancestors style style' width height m d hd =>
    have hentered := ((h.tail rfl).draw d).enter m e.tag ancestors
    rw [Walk.plan_append]
    exact ⟨_, hentered.plan ends_nodes⟩
  | children hns => exact ⟨_, (h.tail rfl).plan ends_nodes⟩
  | @expand e ancestors style x hkind hx =>
    have hbegun := (h.tail rfl).begin (.translate x.x x.y) x.id x.target.tag
    have hends : ∀ u ∈ [x.task style], u.ends = false := by
      intro u hu
      rw [List.mem_singleton.mp hu]
      unfold Stage.Expansion.task
      split_ifs <;> rfl
    exact ⟨_, hbegun.plan hends⟩
  | leave => exact ⟨ts, hagenda, h.grows, h.pop rfl, h.chain⟩
  | endUse =>
    obtain ⟨ids, hchain, hids⟩ := h.chain
    obtain ⟨id, ids, rfl⟩ := List.exists_cons_of_length_eq_add_one
      (show ids.length = (Task.targets ts).length + 1 from hids)
    refine ⟨ts, hagenda, h.grows, h.pop rfl, ids, ?_, Nat.succ.inj hids⟩
    exact congrArg List.tail hchain

/-- The next step is on the way as long as the way is not over. -/
lemma advance (stage : Stage) (h : w.Within (t :: ts) w') :
    ∃ ts', w.Within ts' (stage.advance w') := by
  obtain ⟨matrices, chain, drawn, agenda⟩ := w'
  obtain rfl : agenda = t :: (ts ++ w.agenda) := h.agenda
  let behind : Walk := ⟨matrices, chain, drawn, ts ++ w.agenda⟩
  have hplan : w.Within (t :: ts) (behind.plan [t]) := h
  exact hplan.step (stage.step_perform behind t)

end Walk.Within

namespace Stage

variable {stage : Stage} {n : Xml.Node} {ancestors : List Xml.Tag} {style : Style} {w : Walk}

/-- A node is drawn from its first to its last step: until the last one there is something left to
do for it, and all states in between are on the way. -/
theorem exists_way {depth : Nat} (hdepth : w.chain.length + depth = stage.reuseLimit)
    (n : Xml.Node) (ancestors : List Xml.Tag) (style : Style) :
    ∃ k, stage.advance^[k] (w.plan [.node n ancestors style]) =
        w.draw (stage.node (stage.reuse depth) n ancestors (w.place style)) ∧
      ∀ j ≤ k, ∃ ts, w.Within ts (stage.advance^[j] (w.plan [.node n ancestors style])) ∧
        (ts = [] ↔ j = k) := by
  let alone : Walk := { w with agenda := [] }
  obtain ⟨k, hk, hfirst⟩ :=
    stage.exists_first (stage.draws_node depth n ancestors style alone hdepth)
  have hbefore : ∀ j ≤ k, stage.advance^[j] (w.plan [.node n ancestors style]) =
      (stage.advance^[j] (alone.plan [.node n ancestors style])).before w.agenda := fun j hj =>
    iterate_advance_before stage w.agenda fun i hi => hfirst i (Nat.lt_of_lt_of_le hi hj)
  have hlast : stage.advance^[k] (w.plan [.node n ancestors style]) =
      w.draw (stage.node (stage.reuse depth) n ancestors (w.place style)) := by
    rw [hbefore k (Nat.le_refl k), hk]
    rfl
  -- what is left to do on the way is what would be left to do if there were nothing else
  have hleft : ∀ j ≤ k, ∀ ts,
      w.Within ts (stage.advance^[j] (w.plan [.node n ancestors style])) →
        (stage.advance^[j] (alone.plan [.node n ancestors style])).agenda = ts := by
    intro j hj ts hts
    have hagenda := hts.agenda
    rw [hbefore j hj] at hagenda
    exact List.append_cancel_right hagenda
  refine ⟨k, hlast, fun j hj => ?_⟩
  have hway : ∃ ts, w.Within ts (stage.advance^[j] (w.plan [.node n ancestors style])) := by
    induction j with
    | zero => exact ⟨_, .start w n ancestors style⟩
    | succ j ih =>
      obtain ⟨ts, hts⟩ := ih (Nat.le_of_succ_le hj)
      have hne : ts ≠ [] := hleft j (Nat.le_of_succ_le hj) ts hts ▸ hfirst j hj
      obtain ⟨t, ts, rfl⟩ := List.exists_cons_of_ne_nil hne
      rw [Function.iterate_succ_apply']
      exact hts.advance stage
  obtain ⟨ts, hts⟩ := hway
  obtain rfl := hleft j hj ts hts
  refine ⟨_, hts, fun hnil => ?_, ?_⟩
  · by_contra hne
    exact hfirst j (by omega) hnil
  · rintro rfl
    rw [hk]
    rfl

/-! ## Drawings that end in an error -/

/-- The states of the walk while it draws an element whose drawing ends in an error: the element is
about to be drawn, has been entered, is about to be left after the error has been reported, or has
been drawn. -/
inductive Failing (stage : Stage) (w : Walk) (e : Xml.Element) (ancestors : List Xml.Tag)
    (style : Style) (err : ElementError) : Walk → Prop
  | begun : Failing stage w e ancestors style err (w.plan [.node e.node ancestors style])
  | entered {own : Matrix} {style' : Style} (hown : localMatrix e.tag = .ok own)
      (hcontent : stage.contentFault? e ancestors
        (((w.draw (.reports (preliminary e.tag))).push own).place style') = some err) :
      Failing stage w e ancestors style err
        (((w.draw (.reports (preliminary e.tag))).push own).plan
          [.content e ancestors style', .leave e.tag ancestors])
  | reported {own : Matrix} (hown : localMatrix e.tag = .ok own) :
      Failing stage w e ancestors style err
        (((w.draw (.reports (preliminary e.tag ++ [Drawing.fault e.tag err]))).push own).plan
          [.leave e.tag ancestors])
  | done : Failing stage w e ancestors style err
      (w.draw (.reports (preliminary e.tag ++ [Drawing.fault e.tag err])))

namespace Failing

variable {e : Xml.Element} {err : ElementError} {w' : Walk}

/-- The next state, as long as there is something left to do for the element. -/
lemma advance (h : stage.Failing w e ancestors style err w')
    (hfault : stage.fault? e ancestors (w.place style) = some err)
    (hleft : w'.agenda ≠ w.agenda) : stage.Failing w e ancestors style err (stage.advance w') := by
  cases h with
  | begun =>
    change stage.Failing w e ancestors style err (stage.perform w (.node e.node ancestors style))
    rcases perform_node_of_fault hfault with hperform | ⟨own, style', hown, hperform, hcontent⟩
    · rw [hperform]
      exact .done
    · rw [hperform]
      exact .entered hown hcontent
  | @entered own style' hown hcontent =>
    let inner := (w.draw (.reports (preliminary e.tag))).push own
    change stage.Failing w e ancestors style err
      (stage.perform (inner.plan [.leave e.tag ancestors]) (.content e ancestors style'))
    have hreported : inner.draw (.reports [Drawing.fault e.tag err]) =
        (w.draw (.reports (preliminary e.tag ++ [Drawing.fault e.tag err]))).push own := by
      rw [Drawing.reports_append, ← Walk.draw_draw]
      rfl
    rw [perform_content_of_fault (w := inner.plan [.leave e.tag ancestors]) hcontent]
    change stage.Failing w e ancestors style err
      ((inner.draw (.reports [Drawing.fault e.tag err])).plan [.leave e.tag ancestors])
    rw [hreported]
    exact .reported hown
  | reported hown => exact .done
  | done => exact absurd rfl hleft

/-- No command is drawn and no use is begun, and at most the element itself has been entered. -/
lemma stays (h : stage.Failing w e ancestors style err w') :
    w'.drawn.commands = w.drawn.commands ∧ w'.chain = w.chain ∧
      (w'.matrices = w.matrices ∨
        ∃ own, localMatrix e.tag = .ok own ∧ w'.matrices = w.matrix.mul own :: w.matrices) := by
  have hcommands : ∀ ds, (w.drawn ++ .reports ds).commands = w.drawn.commands := fun ds =>
    List.append_nil _
  cases h with
  | begun => exact ⟨rfl, rfl, Or.inl rfl⟩
  | entered hown _ => exact ⟨hcommands _, rfl, Or.inr ⟨_, hown, rfl⟩⟩
  | reported hown => exact ⟨hcommands _, rfl, Or.inr ⟨_, hown, rfl⟩⟩
  | done => exact ⟨hcommands _, rfl, Or.inl rfl⟩

/-- All states of the walk while the element is drawn are among these. -/
lemma iterate (hfault : stage.fault? e ancestors (w.place style) = some err) {j : Nat}
    (hleft : ∀ i < j,
      (stage.advance^[i] (w.plan [.node e.node ancestors style])).agenda ≠ w.agenda) :
    stage.Failing w e ancestors style err
      (stage.advance^[j] (w.plan [.node e.node ancestors style])) := by
  induction j with
  | zero => exact .begun
  | succ j ih =>
    rw [Function.iterate_succ_apply']
    exact (ih fun i hi => hleft i (Nat.lt_succ_of_lt hi)).advance hfault
      (hleft j (Nat.lt_succ_self j))

end Failing

end Stage

/-! ## The walk over a document -/

namespace Settings

open Stage in
/-- Drawing a node is atomic.  From any state of a walk over a document, whatever is left to do
afterwards, the walk draws any node in any style: after `k` steps the stacks are what they were, and
something has been added behind the commands and the reports, namely the drawing of the node.  At
every step until then the stacks have all that they had, and something on top of it for whatever is
still to be ended.  The registry and the sizes that lengths refer to belong to the stage, which no
step changes.

If the drawing of an element ends in an error, it consists of the reports of features without
effect and that of the error; at no step has there been a command more, an identifier more in the
chain, or another matrix on the stack than that of the element itself.  A use that is entered is
such an element exactly if its reference is missing, unresolved or a cycle, or it is too deep, or
one of its lengths is bad. -/
theorem node_atomic (settings : Settings) (root : Xml.Element) (moment : Nat) (rest : List Task)
    (n : Xml.Node) (ancestors : List Xml.Tag) (style : Style) :
    let stage := settings.stage root
    let w : Walk := { settings.walk root moment with agenda := rest }
    let during := fun j => stage.advance^[j] (w.plan [.node n ancestors style])
    let d := stage.node (stage.reuse (stage.reuseLimit - w.chain.length)) n ancestors
      (w.place style)
    ∃ k, during k = w.draw d ∧
      (∀ j ≤ k, ∃ ts, w.Within ts (during j) ∧ (ts = [] ↔ j = k)) ∧
      ∀ e, n = e.node →
        (∀ err, stage.fault? e ancestors (w.place style) = some err →
          d = .reports (preliminary e.tag ++ [Drawing.fault e.tag err]) ∧
          ∀ j ≤ k, (during j).drawn.commands = w.drawn.commands ∧
            (during j).chain = w.chain ∧
            ((during j).matrices = w.matrices ∨
              ∃ own, localMatrix e.tag = .ok own ∧
                (during j).matrices = w.matrix.mul own :: w.matrices)) ∧
        (ElementKind.ofTag e.tag = .use →
          ∀ style' own, stage.entered? e.tag style = some (style', own) →
            ((∃ err, stage.fault? e ancestors (w.place style) = some err) ↔
              stage.Unusable e.tag ancestors style' w.chain)) := by
  intro stage w during d
  have hlength : w.chain.length ≤ stage.reuseLimit := (settings.chain_walk root moment).length_le
  have hdepth : w.chain.length + (stage.reuseLimit - w.chain.length) = stage.reuseLimit :=
    Nat.add_sub_of_le hlength
  obtain ⟨k, hk, hway⟩ := exists_way hdepth n ancestors style
  refine ⟨k, hk, hway, ?_⟩
  rintro e rfl
  refine ⟨fun err hfault => ⟨?_, fun j hj => ?_⟩, fun huse style' own hentered => ?_⟩
  · exact node_eq_of_fault (stage.reuse_isSome_iff hdepth) hfault
  · refine (Failing.iterate hfault fun i hi hagenda => ?_).stays
    -- before the last step there is something left to do for the element
    obtain ⟨ts, hts, hlast⟩ := hway i (by omega)
    have hnil : ts = [] := List.append_cancel_right (hts.agenda.symm.trans hagenda)
    exact absurd (hlast.mp hnil) (by omega)
  · exact fault?_use_iff huse hentered

/-- A use that refers to nothing, as the only child of its root: it is reported, and nothing is
drawn. -/
theorem node_atomic_aimless :
    let root : Xml.Element := ⟨⟨0, none, "svg", []⟩, [.element ⟨1, none, "use", []⟩ []]⟩
    let e : Xml.Element := ⟨⟨1, none, "use", []⟩, []⟩
    let stage := initial.stage root
    let w : Walk := { initial.walk root 0 with agenda := [.leave root.tag []] }
    let style := (initial.rootPlace root).style
    stage.fault? e [root.tag] (w.place style) = some (.missingAttribute "href") ∧
      ∃ k, stage.advance^[k] (w.plan [.node e.node [root.tag] style]) =
        w.draw (.reports [.element "use" none (.missingAttribute "href")]) ∧
      ∀ j ≤ k,
        (stage.advance^[j] (w.plan [.node e.node [root.tag] style])).chain = w.chain := by
  intro root e stage w style
  obtain ⟨k, hk, -, hnode⟩ :=
    node_atomic initial root 0 [.leave root.tag []] e.node [root.tag] style
  obtain ⟨hreports, huse⟩ := hnode e rfl
  have hentered : stage.entered? e.tag style =
      some (style.derive (.ofTag e.tag) (stage.sizes initialFontSize), .identity) := rfl
  obtain ⟨err, hfault⟩ := (huse rfl _ _ hentered).mpr (.missing rfl)
  have hmissing : stage.fault? e [root.tag] (w.place style) = some (.missingAttribute "href") := rfl
  obtain rfl := Option.some.inj (hfault.symm.trans hmissing)
  obtain ⟨hd, hduring⟩ := hreports _ hfault
  rw [hd] at hk
  exact ⟨hfault, k, hk, fun j hj => (hduring j hj).2.1⟩

end Settings

end SvgDisplayList
