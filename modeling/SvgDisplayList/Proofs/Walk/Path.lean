import Mathlib.Data.List.Duplicate
import SvgDisplayList.Proofs.Walk.Agenda
import SvgDisplayList.Proofs.Walk.Chain
import SvgDisplayList.Proofs.Xml.Numbering

/-!
# Elements inside themselves

The elements that are being drawn form a path from the root down, through children and through uses.
A use is refused if its target is the target of a use in force, or stands around the use in the
document.  These are not all the elements of the path: an element may be on it that was entered as a
child before the first use, or inside of another target.  So an element may be drawn inside of
itself.

This file says when that happens.  No target is in force twice; an element that is on the path twice
is the target of a use in force, or one such target is on it twice (`Agenda.exists_duplicate`); and
no element is on the path more often than once for each use in force and once more
(`Agenda.count_le`).

An element is on the path together with its parents, up to the target through which it was reached.
The first element that comes back is therefore such a target: otherwise its parent would have come
back before.
-/

namespace SvgDisplayList

/-- That a target is registered under an identifier. -/
def Registry.Names (registry : Registry) (id : String) (target : Xml.Tag) : Prop :=
  ∃ e ancestors, registry.element? id = some (e, ancestors) ∧ target = e.tag

/-- In a numbered document an identifier has one element, and an element one identifier. -/
lemma Registry.names_biUnique {root : Xml.Element} (h : root.Numbered) :
    Relator.BiUnique (Registry.collect root).1.Names := by
  constructor
  · rintro id target id' ⟨e, ancestors, he, rfl⟩ ⟨e', ancestors', he', htag⟩
    obtain ⟨hmem, hid⟩ := mem_elements_of_element? he
    obtain ⟨hmem', hid'⟩ := mem_elements_of_element? he'
    have heq := h.eq_of_order_eq hmem hmem' (by rw [htag])
    obtain ⟨rfl, rfl⟩ := Prod.mk.inj heq
    exact Option.some.inj (hid.symm.trans hid')
  · rintro id target target' ⟨e, ancestors, he, rfl⟩ ⟨e', ancestors', he', rfl⟩
    rw [he] at he'
    cases he'
    rfl

/-- In a numbered document an element stands around another one if one of the same place does. -/
lemma Xml.Element.Numbered.exists_order_eq_iff {root : Xml.Element} (h : root.Numbered)
    {e target : Xml.Element} {ancestors targetAncestors : List Xml.Tag}
    (he : (e, ancestors) ∈ root.node.elements [])
    (htarget : (target, targetAncestors) ∈ root.node.elements []) :
    (∃ a ∈ e.tag :: ancestors, a.order = target.tag.order) ↔ target.tag ∈ e.tag :: ancestors := by
  constructor
  · rintro ⟨a, ha, horder⟩
    have hlisted : ∃ children above, (⟨a, children⟩, above) ∈ root.node.elements [] := by
      rcases List.mem_cons.mp ha with rfl | ha
      · exact ⟨_, _, he⟩
      · obtain ⟨inner, above, rfl⟩ := List.append_of_mem ha
        obtain ⟨children, hmem⟩ := Xml.Node.exists_mem_of_ancestor he
        exact ⟨children, above, hmem⟩
    obtain ⟨children, above, hmem⟩ := hlisted
    obtain ⟨rfl, -⟩ := Prod.mk.inj (h.eq_of_order_eq hmem htarget horder)
    exact ha
  · intro ha
    exact ⟨_, ha, rfl⟩

namespace Agenda

variable {registry : Registry} {root : Xml.Element} {spot : Spot} {chain : List String}
    {ts : List Task}

/-! ## The uses in force -/

/-- The chain has the identifiers of the targets of the uses that the agenda ends. -/
lemma names_targets (h : Agenda registry root spot chain ts) :
    List.Forall₂ registry.Names chain (Task.targets ts) := by
  induction h with
  | done => exact .nil
  | task rest fits ih =>
    rw [fits.targets_cons]
    exact ih
  | leave rest mem admits ih => exact ih
  | endUse rest registered ih => exact .cons ⟨_, _, registered, rfl⟩ ih

/-- Inside a use its target is in force. -/
lemma mem_targets_of_use {target : Xml.Tag} (h : Agenda registry root (.use target) chain ts) :
    target ∈ Task.targets ts := by
  generalize hspot : Spot.use target = spot at h
  induction h with
  | done => cases hspot
  | task rest fits ih =>
    rw [fits.targets_cons]
    exact ih hspot
  | leave rest mem admits ih => cases hspot
  | endUse rest registered ih =>
    cases hspot
    exact List.mem_cons_self

/-! ## The path -/

/-- Outside of everything nothing is being drawn. -/
lemma path_of_outside (h : Agenda registry root .outside chain ts) : Task.path ts = [] := by
  generalize hspot : Spot.outside = spot at h
  induction h with
  | done => rfl
  | task rest fits ih =>
    rw [fits.path_cons]
    exact ih hspot
  | leave => cases hspot
  | endUse => cases hspot

/-- Inside an element the path begins with it. -/
lemma path_of_inside {lineage : List Xml.Tag}
    (h : Agenda registry root (.inside lineage) chain ts) :
    ∃ e ancestors above, lineage = e.tag :: ancestors ∧ (e, ancestors) ∈ root.node.elements [] ∧
      Task.path ts = e.tag :: above := by
  generalize hspot : Spot.inside lineage = spot at h
  induction h with
  | done => cases hspot
  | task rest fits ih =>
    rw [fits.path_cons]
    exact ih hspot
  | leave rest mem admits ih =>
    cases hspot
    exact ⟨_, _, _, rfl, mem, rfl⟩
  | endUse => cases hspot

/-- An element on the path was entered where it fitted, behind a part of the path that is left. -/
lemma exists_of_mem_path {tag : Xml.Tag} (h : Agenda registry root spot chain ts)
    (htag : tag ∈ Task.path ts) :
    ∃ children ancestors spot' chain' ts', (⟨tag, children⟩, ancestors) ∈ root.node.elements [] ∧
      spot'.Admits root tag ancestors ∧ Agenda registry root spot' chain' ts' ∧
      tag :: Task.path ts' <:+ Task.path ts ∧ Task.targets ts' <:+ Task.targets ts := by
  induction h with
  | done => cases htag
  | task rest fits ih =>
    rw [fits.path_cons] at htag
    rw [fits.path_cons, fits.targets_cons]
    exact ih htag
  | leave rest mem admits ih =>
    rcases List.mem_cons.mp htag with rfl | htag
    · exact ⟨_, _, _, _, _, mem, admits, rest, List.suffix_rfl, List.suffix_rfl⟩
    · obtain ⟨children, ancestors, spot', chain', ts', hmem, hadmits, hrest, hpath, htargets⟩ :=
        ih htag
      exact ⟨children, ancestors, spot', chain', ts', hmem, hadmits, hrest,
        hpath.trans (List.suffix_cons _ _), htargets⟩
  | endUse rest registered ih =>
    obtain ⟨children, ancestors, spot', chain', ts', hmem, hadmits, hrest, hpath, htargets⟩ :=
      ih htag
    exact ⟨children, ancestors, spot', chain', ts', hmem, hadmits, hrest, hpath,
      htargets.trans (List.suffix_cons _ _)⟩

/-- The first element that comes back is the target of a use in force. -/
lemma mem_targets_of_mem_path (hnumbered : root.Numbered) {tag : Xml.Tag} {children : List Xml.Node}
    {ancestors : List Xml.Tag} (h : Agenda registry root spot chain ts)
    (hmem : (⟨tag, children⟩, ancestors) ∈ root.node.elements [])
    (hadmits : spot.Admits root tag ancestors) (hnodup : (Task.path ts).Nodup)
    (htag : tag ∈ Task.path ts) : tag ∈ Task.targets ts := by
  cases spot with
  | outside =>
    rw [h.path_of_outside] at htag
    cases htag
  | use target =>
    obtain rfl : tag = target := hadmits
    exact h.mem_targets_of_use
  | inside lineage =>
    obtain rfl : ancestors = lineage := hadmits
    obtain ⟨⟨parent, siblings⟩, lineage, above, rfl, -, hpath⟩ := h.path_of_inside
    obtain ⟨children', ancestors', spot', chain', ts', hmem', hadmits', h', hsuffix, htargets⟩ :=
      h.exists_of_mem_path htag
    -- it was entered before with the same ancestors
    obtain ⟨-, rfl⟩ := Prod.mk.inj (hnumbered.eq_of_order_eq hmem' hmem rfl)
    cases spot' with
    | outside => cases hadmits'.2
    | use target =>
      obtain rfl : tag = target := hadmits'
      exact htargets.subset h'.mem_targets_of_use
    | inside lineage' =>
      obtain rfl : parent :: lineage = lineage' := hadmits'
      obtain ⟨⟨parent', _⟩, _, above', hparent, -, hpath'⟩ := h'.path_of_inside
      obtain rfl : parent = parent' := (List.cons.inj hparent).1
      -- so its parent has come back, too
      rw [hpath', hpath] at hsuffix
      have hne : tag ≠ parent := fun heq =>
        hnumbered.order_ne_of_mem_ancestors hmem List.mem_cons_self (by rw [heq])
      rw [List.suffix_cons_iff] at hsuffix
      rcases hsuffix with heq | hsuffix
      · exact absurd (List.cons.inj heq).1 hne
      · rw [hpath] at hnodup
        have hback : parent ∈ above := hsuffix.subset (List.mem_cons_of_mem _ List.mem_cons_self)
        exact absurd hback (List.nodup_cons.mp hnodup).1

/-- If any element is on the path twice, the target of a use in force is. -/
theorem exists_duplicate (hnumbered : root.Numbered) (h : Agenda registry root spot chain ts)
    (hpath : ¬ (Task.path ts).Nodup) :
    ∃ target ∈ Task.targets ts, List.Duplicate target (Task.path ts) := by
  induction h with
  | done => exact absurd List.nodup_nil hpath
  | task rest fits ih =>
    rw [fits.path_cons] at hpath
    rw [fits.path_cons, fits.targets_cons]
    exact ih hpath
  | @leave spot chain tag children ancestors ts rest mem admits ih =>
    by_cases hrest : (Task.path ts).Nodup
    · have htag : tag ∈ Task.path ts := by
        by_contra hfresh
        exact hpath (List.nodup_cons.mpr ⟨hfresh, hrest⟩)
      exact ⟨tag, rest.mem_targets_of_mem_path hnumbered mem admits hrest htag,
        htag.duplicate_cons_self⟩
    · obtain ⟨target, htarget, hdup⟩ := ih hrest
      exact ⟨target, htarget, hdup.duplicate_cons _⟩
  | endUse rest registered ih =>
    obtain ⟨target, htarget, hdup⟩ := ih hpath
    exact ⟨target, List.mem_cons_of_mem _ htarget, hdup⟩

/-- The lineage of an element has no element twice. -/
lemma nodup_lineage (hnumbered : root.Numbered) {e : Xml.Element} {ancestors : List Xml.Tag}
    (he : (e, ancestors) ∈ root.node.elements []) : ((e.tag :: ancestors).map (·.order)).Nodup := by
  induction ancestors generalizing e with
  | nil => exact List.nodup_singleton _
  | cons a above ih =>
    have habove : (e, [] ++ a :: above) ∈ root.node.elements [] := he
    obtain ⟨children, ha⟩ := Xml.Node.exists_mem_of_ancestor habove
    refine List.nodup_cons.mpr ⟨fun hmem => ?_, ih ha⟩
    obtain ⟨b, hb, horder⟩ := List.mem_map.mp hmem
    exact hnumbered.order_ne_of_mem_ancestors he hb horder

/-- The elements in the document at and around a spot, as far as the spot knows them. -/
def lineage : Spot → List Xml.Tag
  | .inside lineage => lineage
  | _ => []

/-- An element is on the path at most once for each use in force, and once more if it is of the
present lineage. -/
lemma count_le_add (hnumbered : root.Numbered) (h : Agenda registry root spot chain ts) (i : Nat) :
    ((Task.path ts).map (·.order)).count i ≤
      (Task.targets ts).length + ((lineage spot).map (·.order)).count i := by
  induction h with
  | done => exact Nat.zero_le _
  | task rest fits ih =>
    rw [fits.path_cons, fits.targets_cons]
    exact ih
  | @leave spot chain tag children ancestors ts rest mem admits ih =>
    have hlineage : ((lineage spot).map (·.order)).count i ≤ (ancestors.map (·.order)).count i := by
      cases spot with
      | outside | use => exact Nat.zero_le _
      | inside lineage =>
        obtain rfl : ancestors = lineage := admits
        exact le_rfl
    change ((tag :: Task.path ts).map (·.order)).count i ≤
      (Task.targets ts).length + ((tag :: ancestors).map (·.order)).count i
    rw [List.map_cons, List.map_cons, List.count_cons, List.count_cons]
    omega
  | @endUse lineage' chain id target ancestors ts rest registered ih =>
    obtain ⟨e, above, -, rfl, he, -⟩ := rest.path_of_inside
    have hone : ((lineage (.inside (e.tag :: above))).map (·.order)).count i ≤ 1 :=
      List.nodup_iff_count_le_one.mp (nodup_lineage hnumbered he) i
    change ((Task.path ts).map (·.order)).count i ≤ (Task.targets ts).length + 1 + 0
    omega

/-- An element is on the path at most once for each use in force, and once more. -/
theorem count_le (hnumbered : root.Numbered) (h : Agenda registry root spot chain ts) (i : Nat) :
    ((Task.path ts).map (·.order)).count i ≤ (Task.targets ts).length + 1 := by
  refine le_trans (h.count_le_add hnumbered i) (Nat.add_le_add_left ?_ _)
  cases spot with
  | outside | use => exact Nat.zero_le _
  | inside lineage' =>
    obtain ⟨e, above, -, rfl, he, -⟩ := h.path_of_inside
    exact List.nodup_iff_count_le_one.mp (nodup_lineage hnumbered he) i

end Agenda

/-! ## Uses of elements on the path -/

namespace Stage

variable {stage : Stage} {w : Walk} {e : Xml.Element} {ancestors : List Xml.Tag} {style : Style}
    {ts : List Task}

/-- The next step is the report of a cycle, and nothing else, exactly if the use leads back. -/
lemma advance_eq_cycle_iff {id : String} (hagenda : w.agenda = .content e ancestors style :: ts)
    (huse : ElementKind.ofTag e.tag = .use) :
    stage.advance w =
        { w with
          drawn := w.drawn ++ .reports [Drawing.fault e.tag (.referenceCycle id)]
          agenda := ts } ↔
      stage.expansion e.tag ancestors style w.chain = .error (.referenceCycle id) := by
  have hadvance :
      stage.advance w = stage.perform { w with agenda := ts } (.content e ancestors style) := by
    unfold advance
    rw [hagenda]
  rw [hadvance]
  simp only [perform, huse]
  cases hx : stage.expansion e.tag ancestors style w.chain with
  | error err =>
    constructor
    · intro h
      have hdrawn := congrArg (fun w => w.drawn.diagnostics) h
      have hreport := List.append_cancel_left hdrawn
      cases hreport
      rfl
    · rintro ⟨⟩
      rfl
  | ok x =>
    constructor
    · intro h
      have hlength := congrArg (fun w => w.agenda.length) h
      simp only [Walk.plan, Walk.push, List.length_append, List.length_cons] at hlength
      omega
    · rintro ⟨⟩

end Stage

namespace Settings

/-- At every moment of the walk over a document that has been read: no target is in force twice; no
element is on the path twice exactly if no target in force is; an element is on the path at most
once for each use in force and once more; and a use is reported as a cycle, and draws nothing,
exactly if its target is in force or stands around it. -/
theorem path_walk (settings : Settings) {text : String} {document : Xml.Document}
    (hread : Xml.Document.read text = .ok document) (moment : Nat) :
    (settings.walk document.root moment).targets.Nodup ∧
    ((settings.walk document.root moment).path.Nodup ↔
      ∀ target ∈ (settings.walk document.root moment).targets,
        ¬ List.Duplicate target (settings.walk document.root moment).path) ∧
    (∀ i, ((settings.walk document.root moment).path.map (·.order)).count i ≤
      (settings.walk document.root moment).targets.length + 1) ∧
    ∀ e ancestors style ts id target above,
      (settings.walk document.root moment).agenda = .content e ancestors style :: ts →
      ElementKind.ofTag e.tag = .use → e.tag.reference? = some id →
      (Registry.collect document.root).1.element? id = some (target, above) →
      (settings.walk document.root (moment + 1) =
          { settings.walk document.root moment with
            drawn := (settings.walk document.root moment).drawn ++
              .reports [Drawing.fault e.tag (.referenceCycle id)]
            agenda := ts } ↔
        target.tag ∈ (settings.walk document.root moment).targets ∨
          target.tag ∈ e.tag :: ancestors) := by
  have hnumbered := Xml.Document.numbered_of_read hread
  obtain ⟨spot, hagenda⟩ := settings.agenda_walk document.root moment
  have hunique := Registry.names_biUnique hnumbered
  have hnames := hagenda.names_targets
  refine ⟨?_, ⟨?_, ?_⟩, ?_, ?_⟩
  · exact (List.rel_nodup hunique hnames).mp (settings.chain_walk document.root moment).nodup
  · intro hnodup target _
    exact List.nodup_iff_forall_not_duplicate.mp hnodup target
  · intro htargets
    by_contra hpath
    obtain ⟨target, htarget, hdup⟩ := hagenda.exists_duplicate hnumbered hpath
    exact htargets target htarget hdup
  · exact hagenda.count_le hnumbered
  · intro e ancestors style ts id target above hnext huse hid htarget
    rw [hnext] at hagenda
    have he := (hagenda.tail rfl).1.1
    have hlisted := (Registry.mem_elements_of_element? htarget).1
    have hinforce : id ∈ (settings.walk document.root moment).chain ↔
        target.tag ∈ (settings.walk document.root moment).targets :=
      List.rel_mem hunique ⟨target, above, htarget, rfl⟩ hnames
    rw [walk_succ, Stage.advance_eq_cycle_iff hnext huse, Stage.expansion_eq_referenceCycle_iff]
    constructor
    · rintro ⟨found, -, hfound, hback⟩
      obtain rfl : (target, above) = found := Option.some.inj (htarget.symm.trans hfound)
      exact hback.imp hinforce.mp (hnumbered.exists_order_eq_iff he hlisted).mp
    · intro h
      exact ⟨_, hid, htarget, h.imp hinforce.mpr (hnumbered.exists_order_eq_iff he hlisted).mpr⟩

set_option maxRecDepth 20000 in
/-- A square that is drawn inside of the group that it is drawn in.  The use of the group is not
refused, as the group is not around it in the document and was not reached through a use; the group
comes back as a target, and only there the use in it is found to lead back. -/
theorem path_walk_roundabout :
    Xml.Document.read Xml.roundabout = .ok .roundabout ∧
    (initial.walk Xml.Document.roundabout.root 15).path.map (·.order) = [5, 4, 3, 2, 6, 4, 0] ∧
    (∃ target ∈ (initial.walk Xml.Document.roundabout.root 15).targets,
      List.Duplicate target (initial.walk Xml.Document.roundabout.root 15).path) ∧
    (initial.drawing Xml.Document.roundabout.root).commands.length = 2 ∧
    (initial.drawing Xml.Document.roundabout.root).diagnostics =
      [.element "use" none (.referenceCycle "d")] := by
  have hread : Xml.Document.read Xml.roundabout = .ok .roundabout := rfl
  refine ⟨hread, rfl, ?_, rfl, rfl⟩
  by_contra hnone
  have hnodup := (path_walk initial hread 15).2.1.mpr fun target htarget hdup =>
    hnone ⟨target, htarget, hdup⟩
  -- the group stands at two places of the path
  exact List.nodup_iff_getElem?_ne_getElem?.mp hnodup 1 5 (by decide) (by decide) rfl

end Settings

end SvgDisplayList
