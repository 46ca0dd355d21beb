import SvgDisplayList.Proofs.Scene.Registry
import SvgDisplayList.Proofs.Walk.Step

/-!
# The chain of uses

At every moment the chain of a walk has distinct identifiers, they are those of registered elements,
and there are no more of them than the limit allows (`Settings.chain_walk`).  The steps that change
it are the expansion of a use, which has tested all of this, and the end of a use.

A use that is too deep needs one identifier more than the limit allows: those of the chain and its
own.  So there is no such use if the limit is not below the number of registered elements.
-/

namespace SvgDisplayList

/-! ## The invariant -/

/-- A chain of uses that the walk can be in. -/
structure Stage.Chain (stage : Stage) (ids : List String) : Prop where
  nodup : ids.Nodup
  registered : ∀ id ∈ ids, id ∈ stage.registry.elementIds
  length_le : ids.length ≤ stage.reuseLimit

namespace Stage.Chain

variable {stage : Stage} {ids : List String}

/-- No use is in force at the start. -/
lemma nil (stage : Stage) : stage.Chain [] where
  nodup := List.nodup_nil
  registered := by simp
  length_le := Nat.zero_le _

/-- The innermost use ends. -/
lemma tail (h : stage.Chain ids) : stage.Chain ids.tail where
  nodup := h.nodup.tail
  registered id hid := h.registered id (List.mem_of_mem_tail hid)
  length_le := le_trans (by rw [List.length_tail]; omega) h.length_le

/-- A use is expanded. -/
lemma expand {tag : Xml.Tag} {ancestors : List Xml.Tag} {style : Style} {x : Expansion}
    (h : stage.Chain ids) (hx : stage.expansion tag ancestors style ids = .ok x) :
    stage.Chain (x.id :: ids) := by
  obtain ⟨-, htarget, hback, hlength, -⟩ := expansion_eq_ok_iff.mp hx
  refine ⟨List.nodup_cons.mpr ⟨fun hid => hback (Or.inl hid), h.nodup⟩, ?_, hlength⟩
  intro id hid
  rcases List.mem_cons.mp hid with rfl | hid
  · simp [Registry.elementIds, htarget]
  · exact h.registered id hid

/-- Whatever a task does, the chain stays one that the walk can be in. -/
lemma step {w w' : Walk} {t : Task} (h : stage.Chain w.chain) (hstep : stage.Step w t w') :
    stage.Chain w'.chain := by
  cases hstep with
  | expand hkind hx => exact h.expand hx
  | endUse => exact h.tail
  | draw | enter | symbol | children | fault | leave => exact h

end Stage.Chain

/-- At every moment of a walk the identifiers in the chain are distinct, they are those of
registered elements, and there are no more of them than the limit allows. -/
lemma Settings.chain_walk (settings : Settings) (root : Xml.Element) (moment : Nat) :
    (settings.stage root).Chain (settings.walk root moment).chain :=
  walk_induction (p := fun w => (settings.stage root).Chain w.chain) (.nil _)
    (fun w _ _ h hstep => Stage.Chain.step (w := w) h hstep) moment

/-! ## Uses that are too deep -/

/-- There are more registered elements than uses may nest. -/
def Stage.Overfull (stage : Stage) : Prop :=
  ∃ ids : List String, ids.Nodup ∧ (∀ id ∈ ids, id ∈ stage.registry.elementIds) ∧
    stage.reuseLimit < ids.length

/-- Reports of a use that is too deep, if there are any, come from a stage that is overfull. -/
def Stage.DepthReported (stage : Stage) (ds : List Diagnostic) : Prop :=
  ∀ tag id? limit, .element tag id? (.reuseTooDeep limit) ∈ ds → stage.Overfull

namespace Stage

variable {stage : Stage}

/-- A use that is too deep has an identifier that is not in the chain. -/
lemma overfull_of_reuseTooDeep {tag : Xml.Tag} {ancestors : List Xml.Tag} {style : Style}
    {ids : List String} {limit : Nat} (h : stage.Chain ids)
    (hx : stage.expansion tag ancestors style ids = .error (.reuseTooDeep limit)) :
    stage.Overfull := by
  rcases expansion_eq_error hx with hown | ⟨id, target, -, htarget, ⟨herr, -⟩ | ⟨-, hback, hlength⟩⟩
  · exact hown.elim
  · cases herr
  · refine ⟨id :: ids, List.nodup_cons.mpr ⟨fun hid => hback (Or.inl hid), h.nodup⟩, ?_,
      Nat.lt_succ_of_le hlength⟩
    intro id' hid'
    rcases List.mem_cons.mp hid' with rfl | hid'
    · simp [Registry.elementIds, htarget]
    · exact h.registered id' hid'

/-- An element's own faults are no reports of depth. -/
lemma DepthReported.of_reportsOwn {d : Drawing} (h : d.ReportsOwn) :
    stage.DepthReported d.diagnostics :=
  fun _ _ _ hmem => (h _ _ _ hmem).elim

/-- Reports after reports. -/
lemma DepthReported.append {ds ds' : List Diagnostic} (h : stage.DepthReported ds)
    (h' : stage.DepthReported ds') : stage.DepthReported (ds ++ ds') :=
  fun tag id? limit hmem => (List.mem_append.mp hmem).elim (h tag id? limit) (h' tag id? limit)

/-- Whatever a task reports about depth comes from a stage that is overfull. -/
lemma DepthReported.step {w w' : Walk} {t : Task} (hchain : stage.Chain w.chain)
    (h : stage.DepthReported w.drawn.diagnostics) (hstep : stage.Step w t w') :
    stage.DepthReported w'.drawn.diagnostics := by
  cases hstep with
  | draw _ hd => exact h.append (.of_reportsOwn hd)
  | enter hd => exact h.append (.of_reportsOwn hd)
  | symbol hd => exact h.append (.of_reportsOwn hd)
  | fault hkind hx =>
    refine h.append fun tag id? limit hmem => ?_
    cases List.mem_singleton.mp hmem
    exact overfull_of_reuseTooDeep hchain hx
  | children | expand | leave | endUse => exact h

end Stage

/-- Whatever is reported about depth up to a moment comes from a stage that is overfull. -/
lemma Settings.depthReported_walk (settings : Settings) (root : Xml.Element) (moment : Nat) :
    (settings.stage root).DepthReported (settings.walk root moment).drawn.diagnostics := by
  refine (walk_induction
    (p := fun w => (settings.stage root).Chain w.chain ∧
      (settings.stage root).DepthReported w.drawn.diagnostics)
    ⟨.nil _, fun _ _ _ h => by cases h⟩ ?_ moment).2
  intro w t w' h hstep
  exact ⟨Stage.Chain.step (w := w) h.1 hstep, Stage.DepthReported.step (w := w) h.1 h.2 hstep⟩

/-! ## Limits -/

/-- A stage is not overfull if the limit is not below the number of identifiers of elements. -/
lemma Settings.not_overfull {settings : Settings} {root : Xml.Element}
    (hlimit : (Registry.collect root).1.elementIds.ncard ≤ settings.reuseLimit) :
    ¬ (settings.stage root).Overfull := by
  rintro ⟨ids, hnodup, hids, hlength⟩
  have hsubset : (↑ids.toFinset : Set String) ⊆ (Registry.collect root).1.elementIds := by
    intro id hid
    exact hids id (List.mem_toFinset.mp hid)
  have hcard := Set.ncard_le_ncard hsubset (Registry.finite_elementIds root)
  rw [Set.ncard_coe_finset, List.toFinset_card_of_nodup hnodup] at hcard
  exact absurd (lt_of_lt_of_le hlength (le_trans hcard hlimit)) (lt_irrefl _)

namespace Settings

/-- The walk over any document comes to an end, having drawn what the document draws.  At every
moment the identifiers of the uses in force are distinct, are registered for elements and are no
more than the limit.  If the limit is not below the number of identifiers of elements, no use is
ever reported as too deep. -/
theorem walk_bounded (settings : Settings) (document : Xml.Document) :
    (∃ moment, (settings.walk document.root moment).agenda = [] ∧
      (settings.walk document.root moment).drawn = settings.drawing document.root) ∧
    (∀ moment, (settings.walk document.root moment).chain.Nodup ∧
      (∀ id ∈ (settings.walk document.root moment).chain,
        id ∈ (Registry.collect document.root).1.elementIds) ∧
      (settings.walk document.root moment).chain.length ≤ settings.reuseLimit) ∧
    ((Registry.collect document.root).1.elementIds.ncard ≤ settings.reuseLimit →
      (∀ moment tag id? limit,
        .element tag id? (.reuseTooDeep limit) ∉
          (settings.walk document.root moment).drawn.diagnostics) ∧
      ∀ raised raised' t, settings.translateTree document raised = (.ok t, raised') →
        ∀ tag id? limit, .element tag id? (.reuseTooDeep limit) ∉ t.drawing.diagnostics) := by
  obtain ⟨last, hlast⟩ := settings.exists_walk_done document.root
  refine ⟨⟨last, by rw [hlast], by rw [hlast]⟩, fun moment => ?_, fun hlimit => ?_⟩
  · obtain ⟨hnodup, hregistered, hlength⟩ := settings.chain_walk document.root moment
    exact ⟨hnodup, hregistered, hlength⟩
  · have hwalk : ∀ moment tag id? limit,
        .element tag id? (.reuseTooDeep limit) ∉
          (settings.walk document.root moment).drawn.diagnostics := by
      intro moment tag id? limit hmem
      exact not_overfull hlimit
        (settings.depthReported_walk document.root moment tag id? limit hmem)
    refine ⟨hwalk, fun raised raised' t ht tag id? limit hmem => ?_⟩
    have hreports : t.drawing = .reports (Registry.collect document.root).2 ∨
        t.drawing = .reports (Registry.collect document.root).2 ++
          settings.drawing document.root := by
      cases hdraw : settings.definitionsOnly with
      | true => exact Or.inl (settings.drawing_eq_of_definitionsOnly document hdraw ht)
      | false => exact Or.inr (settings.drawing_eq document hdraw ht)
    rcases hreports with h | h
    · rw [h] at hmem
      exact Registry.isOwn_of_mem_collect hmem
    · rw [h, Drawing.diagnostics_append, List.mem_append] at hmem
      rcases hmem with hmem | hmem
      · exact Registry.isOwn_of_mem_collect hmem
      · have hdone := hwalk last tag id? limit
        rw [hlast] at hdone
        exact hdone hmem

set_option maxRecDepth 20000 in
/-- The walk over a document that comes back to itself, with a level for each of its identifiers. -/
theorem walk_bounded_roundabout :
    (Registry.collect Xml.Document.roundabout.root).1.elementIds.ncard ≤
      ({ initial with reuseLimit := 2 }).reuseLimit ∧
    ∀ moment tag id? limit, .element tag id? (.reuseTooDeep limit) ∉
      (({ initial with reuseLimit := 2 }).walk
        Xml.Document.roundabout.root moment).drawn.diagnostics := by
  have hlimit : (Registry.collect Xml.Document.roundabout.root).1.elementIds.ncard ≤ 2 := by
    rw [Registry.ncard_elementIds]
    decide
  exact ⟨hlimit, ((walk_bounded { initial with reuseLimit := 2 } .roundabout).2.2 hlimit).1⟩

end Settings

end SvgDisplayList
