import SvgDisplayList.Proofs.Drawing.Contribution
import SvgDisplayList.Proofs.Walk.Machine

/-!
# The run of the walk

A node on top of the agenda is done after finitely many steps: the stacks are then what they were,
and the drawing of the node (`Stage.node`) has been added to what was drawn.  The induction is on
the number of levels that the chain leaves below the limit, and for each number on the node; a use
takes one level away, and its target may be any node of the document.
-/

namespace SvgDisplayList

namespace Stage

/-- The walk comes from one state to another. -/
def Leads (stage : Stage) (w w' : Walk) : Prop := ∃ k, stage.advance^[k] w = w'

namespace Leads

variable {stage : Stage} {w w' w'' : Walk}

/-- The walk comes from every state to that state. -/
lemma refl (stage : Stage) (w : Walk) : stage.Leads w w := ⟨0, rfl⟩

/-- Two parts of a walk make one. -/
lemma trans (h : stage.Leads w w') (h' : stage.Leads w' w'') : stage.Leads w w'' := by
  obtain ⟨k, rfl⟩ := h
  obtain ⟨k', rfl⟩ := h'
  exact ⟨k' + k, Function.iterate_add_apply _ _ _ _⟩

/-- A step behind a part of a walk. -/
lemma tail (h : stage.Leads w w') : stage.Leads w (stage.advance w') :=
  trans h ⟨1, rfl⟩

end Leads

end Stage

/-! ## What the stacks and the agenda do to each other -/

namespace Walk

variable (w : Walk)

@[simp] lemma plan_nil : w.plan [] = w := rfl

lemma plan_append (ts us : List Task) : w.plan (ts ++ us) = (w.plan us).plan ts := by
  unfold plan
  simp only [List.append_assoc]

lemma draw_draw (a b : Drawing) : (w.draw a).draw b = w.draw (a ++ b) := by
  unfold draw
  simp only [Drawing.append_assoc]

@[simp] lemma draw_empty : w.draw .empty = w := by
  unfold draw
  simp only [Drawing.append_empty]

end Walk

namespace Stage

variable (stage : Stage)

/-- The next task is done in one step. -/
lemma leads_perform (w : Walk) (t : Task) : stage.Leads (w.plan [t]) (stage.perform w t) := ⟨1, rfl⟩

/-- A node on top of the agenda is drawn by the walk. -/
def Draws (depth : Nat) (n : Xml.Node) : Prop :=
  ∀ (ancestors : List Xml.Tag) (style : Style) (w : Walk),
    w.chain.length + depth = stage.reuseLimit → stage.Leads (w.plan [.node n ancestors style])
      (w.draw (stage.node (stage.reuse depth) n ancestors (w.place style)))

variable {stage} {depth : Nat} {w : Walk}

/-- A list of nodes that the walk draws is drawn node by node. -/
lemma leads_nodes {ns : List Xml.Node} (hns : ∀ n ∈ ns, stage.Draws depth n)
    (hdepth : w.chain.length + depth = stage.reuseLimit) (ancestors : List Xml.Tag)
    (style : Style) :
    stage.Leads (w.plan (Task.nodes ns ancestors style))
      (w.draw (stage.nodes (stage.reuse depth) ns ancestors (w.place style))) := by
  induction ns generalizing w with
  | nil =>
    rw [nodes, Walk.draw_empty]
    exact Leads.refl stage w
  | cons n ns ih =>
    obtain ⟨hn, hns⟩ := List.forall_mem_cons.mp hns
    rw [nodes_cons, ← Walk.draw_draw]
    have hhead := hn ancestors style (w.plan (Task.nodes ns ancestors style)) hdepth
    exact hhead.trans (ih hns (w := w.draw _) hdepth)

/-- An element that is entered is drawn by the tasks that its entry plans, if these draw what the
element holds. -/
lemma leads_enter {tag : Xml.Tag} {style : Style} {tasks : Style → Matrix → Walk → Walk}
    {draw : Style → Matrix → Drawing}
    (h : ∀ style' own, stage.entered? tag style = some (style', own) →
      ∀ w' : Walk, w'.chain = w.chain → w'.matrices = w.matrices →
        stage.Leads (tasks style' own w') (w'.draw (draw style' own))) :
    stage.Leads (stage.enterWalk w tag style tasks)
      (w.draw (.reports (entryReports tag) ++
        match stage.entered? tag style with
        | none => .empty
        | some (style', own) => draw style' own)) := by
  rw [← Walk.draw_draw]
  unfold enterWalk
  cases hentered : stage.entered? tag style with
  | none =>
    simp only [Walk.draw_empty]
    exact Leads.refl stage _
  | some entered => exact h entered.1 entered.2 hentered (w.draw _) rfl rfl

/-- A symbol is drawn by the walk if its children are. -/
lemma leads_symbol {e : Xml.Element} (hchildren : ∀ n ∈ e.children, stage.Draws depth n)
    (hdepth : w.chain.length + depth = stage.reuseLimit) (ancestors : List Xml.Tag) (style : Style)
    (width height : Option Float32) :
    stage.Leads (w.plan [.symbol e ancestors style width height])
      (w.draw (stage.enter e.tag (w.place style) fun style' own =>
        stage.nodes (stage.reuse depth) e.children (e.tag :: ancestors)
          ({ w.place style with style := style' }.moved
            (own.mul (symbolFit e.tag width height))))) := by
  have hstep := leads_perform stage w (.symbol e ancestors style width height)
  simp only [perform] at hstep
  rw [enter_eq]
  refine hstep.trans (leads_enter ?_)
  intro style' own _ w' hchain hmatrices
  let fit := own.mul (symbolFit e.tag width height)
  let inner := (w'.push fit).plan [.leave e.tag ancestors]
  have hplace : inner.place style' = { w.place style with style := style' }.moved fit := by
    simp only [inner, Walk.place, Place.moved, Walk.plan, Walk.push, Walk.matrix, List.headD_cons,
      hchain, hmatrices]
  have hnodes := leads_nodes (w := inner) hchildren (by rw [← hdepth, ← hchain]; rfl)
    (e.tag :: ancestors) style'
  rw [hplace] at hnodes
  rw [Walk.plan_append]
  -- the children are drawn inside, and what is left is to leave the symbol
  exact hnodes.tail

/-- The content of a use is drawn by the walk, if every node is in one level less. -/
lemma leads_use {tag : Xml.Tag} (hlevel : ∀ deeper, depth = deeper + 1 → ∀ n, stage.Draws deeper n)
    (hdepth : w.chain.length + depth = stage.reuseLimit) (children : List Xml.Node)
    (ancestors : List Xml.Tag) (style : Style) (huse : ElementKind.ofTag tag = .use) :
    stage.Leads (w.plan [.content ⟨tag, children⟩ ancestors style])
      (w.draw (.orFault tag (stage.use (stage.reuse depth) tag ancestors (w.place style)))) := by
  rw [use_eq_expansion stage _ _ _ _ (stage.reuse_isSome_iff hdepth)]
  refine (leads_perform stage w _).trans ?_
  change stage.Leads _ (w.draw (.orFault tag ((stage.expansion tag ancestors style w.chain).map _)))
  cases hx : stage.expansion tag ancestors style w.chain with
  | error err =>
    simp only [perform, huse, hx, Except.map, Drawing.orFault_error]
    exact Leads.refl stage _
  | ok x =>
    have hlt := length_lt_of_expansion hx
    obtain ⟨deeper, rfl⟩ : ∃ deeper, depth = deeper + 1 := ⟨depth - 1, by omega⟩
    let inner :=
      ({ w with chain := x.id :: w.chain }.push (.translate x.x x.y)).plan
        [.endUse x.id x.target.tag]
    have hinner : inner.chain.length + deeper = stage.reuseLimit := by
      change (x.id :: w.chain).length + deeper = _
      rw [List.length_cons]
      omega
    have hperform : stage.perform w (.content ⟨tag, children⟩ ancestors style) =
        inner.plan [x.task style] := by
      simp only [perform, huse, hx]
      rfl
    rw [hperform]
    simp only [Except.map, Drawing.orFault_ok, reuse, Option.map_some, Option.getD_some]
    unfold Expansion.task
    -- the target is drawn inside, and what is left is to end the use
    split_ifs with hsymbol
    · exact (leads_symbol (w := inner) (fun n _ => hlevel deeper rfl n) hinner _ _ _ _).tail
    · exact (hlevel deeper rfl x.target.node x.ancestors style inner hinner).tail

/-- The content of an element is drawn by the walk, if its children are, and every node in one level
less. -/
lemma leads_content {e : Xml.Element} (hchildren : ∀ n ∈ e.children, stage.Draws depth n)
    (hlevel : ∀ deeper, depth = deeper + 1 → ∀ n, stage.Draws deeper n)
    (hdepth : w.chain.length + depth = stage.reuseLimit) (ancestors : List Xml.Tag)
    (style : Style) :
    stage.Leads (w.plan [.content e ancestors style])
      (w.draw (stage.content (stage.reuse depth) e ancestors (w.place style))) := by
  have hstep := leads_perform stage w (.content e ancestors style)
  unfold content
  cases hkind : ElementKind.ofTag e.tag with
  | group =>
    simp only [perform, hkind] at hstep
    exact hstep.trans (leads_nodes hchildren hdepth _ _)
  | switch =>
    simp only [perform, hkind] at hstep
    dsimp only
    rw [firstNode_eq]
    cases hfind : e.children.find? isChoice with
    | none =>
      simpa [hfind, Task.nodes] using hstep
    | some c =>
      rw [hfind] at hstep
      exact hstep.trans (hchildren c (List.mem_of_find?_eq_some hfind) _ _ w hdepth)
  | use => exact leads_use hlevel hdepth e.children ancestors style hkind
  | shape s => simpa only [perform, hkind] using hstep
  | text => simpa only [perform, hkind] using hstep
  | image => simpa only [perform, hkind] using hstep
  | definition => simpa only [perform, hkind, Walk.draw_empty] using hstep
  | unsupported => simpa only [perform, hkind, Walk.draw_empty] using hstep
  | ignored => simpa only [perform, hkind, Walk.draw_empty] using hstep
  | unknown => simpa only [perform, hkind, Walk.draw_empty] using hstep

/-- The walk draws every node as `Stage.node` does, leaves the stacks as they were, and goes on with
its agenda. -/
theorem draws_node (stage : Stage) (depth : Nat) (n : Xml.Node) : stage.Draws depth n := by
  induction depth using Nat.strongRecOn generalizing n with
  | ind depth hlevel =>
    induction n using Xml.Node.induction with
    | text s =>
      intro ancestors style w hdepth
      rw [node, Walk.draw_empty]
      exact leads_perform stage w _
    | element tag children hchildren =>
      intro ancestors style w hdepth
      have hstep := leads_perform stage w (.node (.element tag children) ancestors style)
      rw [node_element]
      cases haside : aside? tag with
      | some d =>
        simp only [perform, haside] at hstep
        exact hstep
      | none =>
        simp only [perform, haside] at hstep
        refine hstep.trans (leads_enter ?_)
        intro style' own _ w' hchain hmatrices
        let inner := (w'.push own).plan [.leave tag ancestors]
        have hplace : inner.place style' = { w.place style with style := style' }.moved own := by
          simp only [inner, Walk.place, Place.moved, Walk.plan, Walk.push, Walk.matrix,
            List.headD_cons, hchain, hmatrices]
        have hcontent := leads_content (w := inner) (e := ⟨tag, children⟩) hchildren
          (fun deeper hdeeper => hlevel deeper (by omega))
          (by rw [← hdepth, ← hchain]; rfl) ancestors style'
        rw [hplace] at hcontent
        exact hcontent.tail

end Stage

end SvgDisplayList
