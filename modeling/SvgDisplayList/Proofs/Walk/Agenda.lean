import SvgDisplayList.Proofs.Scene.Registry
import SvgDisplayList.Proofs.Walk.Step

/-!
# The order of the agenda

The tasks that end something divide the agenda.  What stands above such a task is done inside of the
element or the use that the task ends, so it has to fit there: the children of an element have that
element and its ancestors above them, and the target of a use is the element that is registered
under its identifier.  `Agenda` says that every task of an agenda fits where it stands, and every
task that is done leaves an agenda behind of which this is true (`Agenda.step`).
-/

namespace SvgDisplayList

/-- Where a task is done: outside of everything, inside an element whose lineage is given, the
element itself first, or inside a use of a target. -/
inductive Spot where
  | outside
  | inside (lineage : List Xml.Tag)
  | use (target : Xml.Tag)

/-- Whether an element with some ancestors may be entered at a spot. -/
def Spot.Admits (root : Xml.Element) (tag : Xml.Tag) (ancestors : List Xml.Tag) : Spot → Prop
  | outside => tag = root.tag ∧ ancestors = []
  | inside lineage => ancestors = lineage
  | use target => tag = target

/-- Whether a task fits at a spot. -/
def Task.Fits (root : Xml.Element) (spot : Spot) : Task → Prop
  | .node n ancestors _ =>
    n.elements ancestors ⊆ root.node.elements [] ∧
      ∀ tag children, n = .element tag children → spot.Admits root tag ancestors
  | .content e ancestors _ =>
    (e, ancestors) ∈ root.node.elements [] ∧ spot = .inside (e.tag :: ancestors)
  | .symbol e ancestors .. =>
    (e, ancestors) ∈ root.node.elements [] ∧ spot.Admits root e.tag ancestors
  | .leave .. | .endUse .. => False

namespace Task.Fits

variable {root : Xml.Element} {spot : Spot} {t : Task} (ts : List Task)

/-- A task that fits leaves no element. -/
lemma path_cons (h : t.Fits root spot) : Task.path (t :: ts) = Task.path ts := by
  cases t with
  | node | content | symbol => rfl
  | leave | endUse => exact h.elim

/-- A task that fits ends no use. -/
lemma targets_cons (h : t.Fits root spot) : Task.targets (t :: ts) = Task.targets ts := by
  cases t with
  | node | content | symbol => rfl
  | leave | endUse => exact h.elim

end Task.Fits

/-- An agenda whose tasks fit where they stand; the spot is that of its next task, and the chain has
the identifiers of the uses that it ends. -/
inductive Agenda (registry : Registry) (root : Xml.Element) :
    Spot → List String → List Task → Prop where
  | done : Agenda registry root .outside [] []
  | task {spot : Spot} {chain : List String} {t : Task} {ts : List Task}
      (rest : Agenda registry root spot chain ts) (fits : t.Fits root spot) :
      Agenda registry root spot chain (t :: ts)
  | leave {spot : Spot} {chain : List String} {tag : Xml.Tag} {children : List Xml.Node}
      {ancestors : List Xml.Tag} {ts : List Task} (rest : Agenda registry root spot chain ts)
      (mem : (⟨tag, children⟩, ancestors) ∈ root.node.elements [])
      (admits : spot.Admits root tag ancestors) :
      Agenda registry root (.inside (tag :: ancestors)) chain (.leave tag ancestors :: ts)
  | endUse {lineage : List Xml.Tag} {chain : List String} {id : String} {target : Xml.Element}
      {ancestors : List Xml.Tag} {ts : List Task}
      (rest : Agenda registry root (.inside lineage) chain ts)
      (registered : registry.element? id = some (target, ancestors)) :
      Agenda registry root (.use target.tag) (id :: chain) (.endUse id target.tag :: ts)

namespace Agenda

variable {registry : Registry} {root : Xml.Element} {spot : Spot} {chain : List String} {t : Task}
    {ts : List Task}

/-- A task that ends nothing is done at the spot of the rest. -/
lemma tail (h : Agenda registry root spot chain (t :: ts)) (ht : t.ends = false) :
    t.Fits root spot ∧ Agenda registry root spot chain ts := by
  cases h with
  | task rest fits => exact ⟨fits, rest⟩
  | leave => cases ht
  | endUse => cases ht

/-- Behind the end of an element its parent goes on, or the use that it was the target of. -/
lemma of_leave {tag : Xml.Tag} {ancestors : List Xml.Tag}
    (h : Agenda registry root spot chain (.leave tag ancestors :: ts)) :
    ∃ spot', Agenda registry root spot' chain ts := by
  cases h with
  | task rest fits => exact fits.elim
  | leave rest mem admits => exact ⟨_, rest⟩

/-- Behind the end of a use the element that uses goes on. -/
lemma of_endUse {id : String} {target : Xml.Tag}
    (h : Agenda registry root spot chain (.endUse id target :: ts)) :
    ∃ lineage, Agenda registry root (.inside lineage) chain.tail ts := by
  cases h with
  | task rest fits => exact fits.elim
  | endUse rest registered => exact ⟨_, rest⟩

/-- Tasks that fit are put before an agenda. -/
lemma prepend {us : List Task} (h : Agenda registry root spot chain ts)
    (hus : ∀ u ∈ us, u.Fits root spot) :
    Agenda registry root spot chain (us ++ ts) := by
  induction us with
  | nil => exact h
  | cons u us ih =>
    obtain ⟨hu, hus⟩ := List.forall_mem_cons.mp hus
    exact .task (ih hus) hu

/-- Children of an element fit inside of it. -/
lemma fits_nodes {e : Xml.Element} {ancestors : List Xml.Tag} {ns : List Xml.Node} (style : Style)
    (he : (e, ancestors) ∈ root.node.elements []) (hns : ns ⊆ e.children) :
    ∀ u ∈ Task.nodes ns (e.tag :: ancestors) style, u.Fits root (.inside (e.tag :: ancestors)) := by
  intro u hu
  obtain ⟨n, hn, rfl⟩ := List.mem_map.mp hu
  refine ⟨fun x hx => ?_, fun _ _ _ => rfl⟩
  exact Xml.Node.mem_elements_of_mem he (Xml.Node.elements_child_subset (hns hn) ancestors hx)

/-- The agenda at the start. -/
lemma start (registry : Registry) (root : Xml.Element) (style : Style) :
    Agenda registry root (.inside [root.tag]) []
      (Task.nodes root.children [root.tag] style ++ [.leave root.tag []]) := by
  have hroot := Xml.Node.self_mem_elements root []
  exact prepend (.leave .done hroot ⟨rfl, rfl⟩) (fits_nodes style hroot (List.Subset.refl _))

/-- What an expanded use draws fits in the use. -/
lemma fits_target {x : Stage.Expansion} (style : Style)
    (h : (Registry.collect root).1.element? x.id = some (x.target, x.ancestors)) :
    (x.task style).Fits root (.use x.target.tag) := by
  have htarget := (Registry.mem_elements_of_element? h).1
  unfold Stage.Expansion.task
  split_ifs
  · exact ⟨htarget, rfl⟩
  · refine ⟨fun y hy => Xml.Node.mem_elements_of_mem htarget hy, fun tag children heq => ?_⟩
    cases heq
    rfl

/-- Whatever a task does, the agenda keeps its order. -/
theorem step {stage : Stage} {w w' : Walk} (hregistry : stage.registry = (Registry.collect root).1)
    (h : Agenda stage.registry root spot w.chain (t :: w.agenda)) (hstep : stage.Step w t w') :
    ∃ spot', Agenda stage.registry root spot' w'.chain w'.agenda := by
  cases hstep with
  | draw ht hd => exact ⟨spot, (h.tail ht).2⟩
  | fault hkind hx => exact ⟨spot, (h.tail rfl).2⟩
  | enter hd =>
    obtain ⟨⟨hsubset, hadmits⟩, hrest⟩ := h.tail rfl
    have hmem := hsubset (Xml.Node.mem_elements_element.mpr (Or.inl rfl))
    exact ⟨_, .task (.leave hrest hmem (hadmits _ _ rfl)) ⟨hmem, rfl⟩⟩
  | @symbol e ancestors style style' width height m d hd =>
    obtain ⟨⟨hmem, hadmits⟩, hrest⟩ := h.tail rfl
    have hagenda : Agenda stage.registry root (.inside (e.tag :: ancestors)) w.chain
        ((Task.nodes e.children (e.tag :: ancestors) style' ++ [.leave e.tag ancestors]) ++
          w.agenda) := by
      rw [List.append_assoc]
      exact prepend (.leave hrest hmem hadmits) (fits_nodes style' hmem (List.Subset.refl _))
    exact ⟨_, hagenda⟩
  | children hns =>
    obtain ⟨⟨hmem, rfl⟩, hrest⟩ := h.tail rfl
    exact ⟨_, prepend hrest (fits_nodes _ hmem hns)⟩
  | expand hkind hx =>
    obtain ⟨⟨-, rfl⟩, hrest⟩ := h.tail rfl
    have htarget := (Stage.expansion_eq_ok_iff.mp hx).2.1
    exact ⟨_, .task (.endUse hrest htarget) (fits_target _ (hregistry ▸ htarget))⟩
  | leave => exact h.of_leave
  | endUse =>
    obtain ⟨lineage, hrest⟩ := h.of_endUse
    exact ⟨_, hrest⟩

end Agenda

/-- At every moment of the walk over a document the tasks of the agenda fit where they stand. -/
theorem Settings.agenda_walk (settings : Settings) (root : Xml.Element) (moment : Nat) :
    ∃ spot, Agenda (Registry.collect root).1 root spot (settings.walk root moment).chain
      (settings.walk root moment).agenda := by
  refine walk_induction
    (p := fun w => ∃ spot, Agenda (Registry.collect root).1 root spot w.chain w.agenda)
    ⟨_, .start _ root _⟩ ?_ moment
  rintro w t w' ⟨spot, h⟩ hstep
  exact Agenda.step (w := w) (t := t) rfl h hstep

end SvgDisplayList
