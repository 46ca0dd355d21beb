import SvgDisplayList.Proofs.Removal.Tree
import SvgDisplayList.Proofs.Walk.Agenda

/-!
# The walk over a tree without an element

The walk over a tree without an element does the same tasks as the walk over the whole tree, but for
those that draw the element (`Task.remaining`).  A task that has nothing to do with the element
draws and reports the same in both walks, and leaves behind the same agenda but for the tasks that
draw the element (`Stage.perform_without`).
-/

namespace SvgDisplayList

/-! ## Tasks and states -/

namespace Task

variable {order : Nat}

/-- Whether a task draws the element of a place. -/
def isAt (order : Nat) : Task → Bool
  | node n _ _ => n.isAt order
  | _ => false

/-- The same task in the tree without the element of a place. -/
def without (order : Nat) : Task → Task
  | node n ancestors style => node (n.without order) ancestors style
  | content e ancestors style => content (e.without order) ancestors style
  | symbol e ancestors style width height =>
    symbol (e.without order) ancestors style width height
  | leave tag ancestors => leave tag ancestors
  | endUse id target => endUse id target

/-- The tasks of an agenda that are left in the tree without the element of a place. -/
def remaining (order : Nat) (ts : List Task) : List Task :=
  (ts.filter fun t => !t.isAt order).map (without order)

/-- Whether a task does not go on with the element of a place. -/
def Clear (order : Nat) : Task → Prop
  | node .. | endUse .. => True
  | content e .. | symbol e .. => e.tag.order ≠ order
  | leave tag _ => tag.order ≠ order

/-- Tasks that draw the element are left out. -/
lemma remaining_cons_of_isAt {t : Task} (h : t.isAt order = true) (ts : List Task) :
    remaining order (t :: ts) = remaining order ts := by
  unfold remaining
  rw [List.filter_cons_of_neg (by simp [h])]

/-- Other tasks remain. -/
lemma remaining_cons_of_not_isAt {t : Task} (h : t.isAt order = false) (ts : List Task) :
    remaining order (t :: ts) = t.without order :: remaining order ts := by
  unfold remaining
  rw [List.filter_cons_of_pos (by simp [h]), List.map_cons]

/-- What remains of one list behind another. -/
lemma remaining_append (ts us : List Task) :
    remaining order (ts ++ us) = remaining order ts ++ remaining order us := by
  unfold remaining
  rw [List.filter_append, List.map_append]

/-- What remains of the tasks for nodes are the tasks for the nodes that remain. -/
lemma remaining_nodes (ns : List Xml.Node) (ancestors : List Xml.Tag) (style : Style) :
    remaining order (nodes ns ancestors style) =
      nodes (Xml.Node.remaining order ns) ancestors style := by
  unfold remaining nodes Xml.Node.remaining
  rw [List.filter_map, List.map_map, List.map_map]
  rfl

/-- Tasks for nodes do not go on with anything. -/
lemma clear_nodes {ns : List Xml.Node} {ancestors : List Xml.Tag} {style : Style} :
    ∀ t ∈ nodes ns ancestors style, t.Clear order := by
  intro t ht
  obtain ⟨n, -, rfl⟩ := List.mem_map.mp ht
  exact trivial

/-- Where no task goes on with the element, it is not on the path. -/
lemma order_ne_of_mem_path {ts : List Task} (h : ∀ t ∈ ts, t.Clear order) {tag : Xml.Tag}
    (htag : tag ∈ path ts) : tag.order ≠ order := by
  obtain ⟨t, ht, hleft⟩ := List.mem_filterMap.mp htag
  cases t with
  | leave tag' ancestors =>
    cases hleft
    exact h _ ht
  | node | content | symbol | endUse => cases hleft

end Task

/-- The state with what has been drawn in the tree without the element of a place, and what is left
to do there. -/
def Walk.without (order : Nat) (drawn : Drawing) (w : Walk) : Walk :=
  { w with drawn, agenda := Task.remaining order w.agenda }

/-- What is planned remains but for the tasks that draw the element. -/
lemma Walk.without_plan (order : Nat) (a : Drawing) (w : Walk) (ts : List Task) :
    (w.plan ts).without order a = (w.without order a).plan (Task.remaining order ts) := by
  unfold plan without
  dsimp only
  rw [Task.remaining_append]

namespace Stage

variable {order : Nat} {root : Xml.Element} {stage stage' : Stage}

/-! ## Stages -/

/-- The stage of a document, and the one of the document without the element of a place. -/
structure Removes (order : Nat) (stage stage' : Stage) : Prop where
  paints : stage.PaintsAlike stage'
  element : ∀ id, stage'.registry.element? id =
    (stage.registry.element? id).map fun x => (x.1.without order, x.2)
  limit : stage'.reuseLimit = stage.reuseLimit

namespace Removes

/-- An element is entered alike. -/
lemma entered?_eq (h : Removes order stage stage') (tag : Xml.Tag) (style : Style) :
    stage'.entered? tag style = stage.entered? tag style := by
  let e : Xml.Element := ⟨tag, []⟩
  have htag : e.tag.unnumbered = e.tag.unnumbered := rfl
  exact (enter_eq_of_paintsAlike h.paints htag style).2

/-- A use is expanded alike, the target being without the element. -/
lemma expansion_eq (h : Removes order stage stage') (tag : Xml.Tag) (ancestors : List Xml.Tag)
    (style : Style) (chain : List String) :
    stage'.expansion tag ancestors style chain =
      (stage.expansion tag ancestors style chain).map
        fun x => { x with target := x.target.without order } := by
  unfold expansion
  rw [h.paints.sizes_eq, h.limit]
  cases tag.reference? with
  | none => rfl
  | some id =>
    dsimp only
    rw [h.element]
    cases stage.registry.element? id with
    | none => rfl
    | some x =>
      dsimp only [Option.map_some]
      rw [Xml.Element.tag_without]
      split_ifs
      · rfl
      · rfl
      · cases useLengths tag (stage.sizes style.fontSize) <;> rfl

/-- What an expanded use draws, without the element. -/
lemma task_without (x : Expansion) (style : Style) :
    ({ x with target := x.target.without order } : Expansion).task style =
      (x.task style).without order := by
  unfold Expansion.task
  dsimp only
  rw [Xml.Element.name_without]
  split_ifs
  · rfl
  · rw [Xml.Element.node_without]
    rfl

end Removes

/-! ## Steps -/

/-- What an element plans that is entered, without the element. -/
lemma enterWalk_without (h : Removes order stage stage') (w : Walk) (tag : Xml.Tag) (style : Style)
    {tasks tasks' : Style → Matrix → Walk → Walk}
    (htasks : ∀ style own w, (tasks style own w).drawn = w.drawn ∧
      ∀ a, tasks' style own (w.without order a) = (tasks style own w).without order a) :
    ∃ d, (stage.enterWalk w tag style tasks).drawn = w.drawn ++ d ∧
      ∀ a, stage'.enterWalk (w.without order a) tag style tasks' =
        (stage.enterWalk w tag style tasks).without order (a ++ d) := by
  refine ⟨.reports (entryReports tag), ?_⟩
  unfold enterWalk
  rw [h.entered?_eq]
  cases stage.entered? tag style with
  | none => exact ⟨rfl, fun a => rfl⟩
  | some entered =>
    obtain ⟨hdrawn, hwithout⟩ := htasks entered.1 entered.2 (w.draw (.reports (entryReports tag)))
    exact ⟨hdrawn, fun a => hwithout _⟩

/-- What a switch chooses, without the element. -/
lemma find?_isChoice_remaining {ns : List Xml.Node} (h : ∀ c ∈ ns, c.isAt order = false) :
    ((Xml.Node.remaining order ns).find? isChoice).toList =
      Xml.Node.remaining order (ns.find? isChoice).toList := by
  induction ns with
  | nil => rfl
  | cons n ns ih =>
    obtain ⟨hn, hns⟩ := List.forall_mem_cons.mp h
    have hchoice : isChoice (n.without order) = isChoice n := by
      cases n with
      | text s => rfl
      | element tag children =>
        rw [Xml.Node.without_element]
        rfl
    rw [Xml.Node.remaining_cons_of_not_isAt hn, List.find?_cons, List.find?_cons, hchoice]
    cases isChoice n with
    | true => exact (Xml.Node.remaining_cons_of_not_isAt hn []).symm
    | false => exact ih hns

/-- The content of an element other than the one that is taken out draws and reports the same, and
plans the same but for that element. -/
lemma perform_content_without (h : Removes order stage stage') (hloose : root.Loose order)
    (hregistered : ∀ id x, stage.registry.element? id = some x → x.1.tag.order ≠ order)
    {e : Xml.Element} {ancestors : List Xml.Tag} (hlisted : (e, ancestors) ∈ root.node.elements [])
    (he : e.tag.order ≠ order) (style : Style) (w : Walk) :
    ∃ d, (stage.perform w (.content e ancestors style)).drawn = w.drawn ++ d ∧
      ∀ a, stage'.perform (w.without order a) (.content (e.without order) ancestors style) =
        (stage.perform w (.content e ancestors style)).without order (a ++ d) := by
  have hplan : ∀ ns : List Xml.Node, ∀ a,
      (w.without order a).plan
          (Task.nodes (Xml.Node.remaining order ns) (e.tag :: ancestors) style) =
        (w.plan (Task.nodes ns (e.tag :: ancestors) style)).without order (a ++ .empty) := by
    intro ns a
    rw [Drawing.append_empty, Walk.without_plan, Task.remaining_nodes]
  have htag : e.tag.unnumbered = e.tag.unnumbered := rfl
  simp only [perform, Xml.Element.tag_without]
  cases hkind : ElementKind.ofTag e.tag with
  | group => exact ⟨.empty, (Drawing.append_empty _).symm, hplan e.children⟩
  | switch =>
    have hchoice := find?_isChoice_remaining (hloose.switch e ancestors hlisted hkind)
    refine ⟨.empty, (Drawing.append_empty _).symm, fun a => ?_⟩
    dsimp only
    rw [← hplan, ← hchoice]
    rfl
  | shape s =>
    refine ⟨_, rfl, fun a => ?_⟩
    exact congrArg (Walk.draw _) (shape_eq h.paints htag s)
  | text =>
    refine ⟨_, rfl, fun a => ?_⟩
    rw [hloose.text e ancestors hlisted hkind he]
    exact congrArg (Walk.draw _) (text_eq h.paints htag rfl)
  | image =>
    refine ⟨_, rfl, fun a => ?_⟩
    exact congrArg (Walk.draw _) (image_eq h.paints htag)
  | use =>
    dsimp only
    have hchain : ∀ a, (w.without order a).chain = w.chain := fun a => rfl
    simp only [hchain, h.expansion_eq]
    cases hx : stage.expansion e.tag ancestors style w.chain with
    | error err => exact ⟨_, rfl, fun a => rfl⟩
    | ok x =>
      refine ⟨.empty, (Drawing.append_empty _).symm, fun a => ?_⟩
      dsimp only [Except.map]
      have htarget := hregistered x.id _ (expansion_eq_ok_iff.mp hx).2.1
      have hat : (x.task style).isAt order = false := by
        unfold Expansion.task
        split_ifs
        · rfl
        · simpa [Task.isAt, Xml.Element.node, Xml.Node.isAt] using htarget
      rw [Drawing.append_empty, Removes.task_without, Walk.without_plan,
        Task.remaining_cons_of_not_isAt hat, Task.remaining_cons_of_not_isAt rfl]
      rfl
  | definition | unsupported | ignored | unknown =>
    refine ⟨.empty, (Drawing.append_empty _).symm, fun a => ?_⟩
    rw [Drawing.append_empty]

/-- A task that has nothing to do with the element that is taken out draws and reports the same, and
leaves the same agenda behind but for the tasks that draw the element. -/
theorem perform_without (h : Removes order stage stage') (hloose : root.Loose order)
    (hregistered : ∀ id x, stage.registry.element? id = some x → x.1.tag.order ≠ order)
    {t : Task} (hlisted : ∀ e ancestors style, t = .content e ancestors style →
      (e, ancestors) ∈ root.node.elements [])
    (hclear : t.Clear order) (hat : t.isAt order = false) (w : Walk) :
    ∃ d, (stage.perform w t).drawn = w.drawn ++ d ∧
      ∀ a, stage'.perform (w.without order a) (t.without order) =
        (stage.perform w t).without order (a ++ d) := by
  cases t with
  | node n ancestors style =>
    cases n with
    | text s =>
      refine ⟨.empty, (Drawing.append_empty _).symm, fun a => ?_⟩
      rw [Drawing.append_empty]
      rfl
    | element tag children =>
      simp only [Task.without, Xml.Node.without_element, perform]
      cases aside? tag with
      | some d => exact ⟨d, rfl, fun a => rfl⟩
      | none =>
        refine enterWalk_without h w tag style fun style' own w' => ⟨rfl, fun a => ?_⟩
        rw [Walk.without_plan, Task.remaining_cons_of_not_isAt rfl,
          Task.remaining_cons_of_not_isAt rfl]
        rfl
  | content e ancestors style =>
    exact perform_content_without h hloose hregistered (hlisted e ancestors style rfl) hclear style
      w
  | symbol e ancestors style width height =>
    simp only [Task.without, perform]
    refine enterWalk_without h w e.tag style fun style' own w' => ⟨rfl, fun a => ?_⟩
    rw [Walk.without_plan, Task.remaining_append, Task.remaining_nodes,
      Task.remaining_cons_of_not_isAt rfl]
    rfl
  | leave tag ancestors =>
    refine ⟨.empty, (Drawing.append_empty _).symm, fun a => ?_⟩
    rw [Drawing.append_empty]
    rfl
  | endUse id target =>
    refine ⟨.empty, (Drawing.append_empty _).symm, fun a => ?_⟩
    rw [Drawing.append_empty]
    rfl

/-- A task that has nothing to do with the element does not make others go on with it. -/
lemma Step.clear {w w' : Walk} {t : Task} (hstep : stage.Step w t w')
    (hregistered : ∀ id x, stage.registry.element? id = some x → x.1.tag.order ≠ order)
    (hat : t.isAt order = false) (ht : t.Clear order) (h : ∀ u ∈ w.agenda, u.Clear order) :
    ∀ u ∈ w'.agenda, u.Clear order := by
  cases hstep with
  | draw | fault | leave | endUse => exact h
  | @enter tag children ancestors style style' m d hd =>
    have htag : tag.order ≠ order := by simpa [Task.isAt, Xml.Node.isAt] using hat
    change ∀ u ∈ .content ⟨tag, children⟩ ancestors style' :: .leave tag ancestors :: w.agenda, _
    exact List.forall_mem_cons.mpr ⟨htag, List.forall_mem_cons.mpr ⟨htag, h⟩⟩
  | @symbol e ancestors style style' width height m d hd =>
    intro u hu
    change u ∈ (Task.nodes e.children (e.tag :: ancestors) style' ++ [.leave e.tag ancestors]) ++
      w.agenda at hu
    rw [List.append_assoc, List.mem_append, List.singleton_append, List.mem_cons] at hu
    rcases hu with hu | rfl | hu
    · exact Task.clear_nodes u hu
    · exact ht
    · exact h u hu
  | children hns =>
    intro u hu
    rcases List.mem_append.mp hu with hu | hu
    · exact Task.clear_nodes u hu
    · exact h u hu
  | @expand e ancestors style x hkind hx =>
    change ∀ u ∈ x.task style :: .endUse x.id x.target.tag :: w.agenda, _
    refine List.forall_mem_cons.mpr ⟨?_, List.forall_mem_cons.mpr ⟨trivial, h⟩⟩
    unfold Expansion.task
    split_ifs
    · exact hregistered x.id _ (expansion_eq_ok_iff.mp hx).2.1
    · exact trivial

end Stage

end SvgDisplayList
