import SvgDisplayList.Proofs.Inlining.Document
import SvgDisplayList.Proofs.Style.Soundness

/-!
# Where commands come from

Every command of a translation is what some element of the document draws in some style, and that
style has been derived, element by element, from the initial one (`Settings.exists_origin`).  So
what holds of the drawables of all elements in all derived styles holds of all commands, whatever
groups, switches and uses they have come through.

The induction is the one over contributions: on the number of uses that may still be expanded, and
for each number on the node.
-/

namespace SvgDisplayList

namespace Stage

/-- A drawable that an element of a document draws in a style that has been derived from the initial
one. -/
def IsDrawn (stage : Stage) (root : Xml.Element) (d : Drawable) : Prop :=
  ∃ e above chain, (e, above) ∈ root.node.elements [] ∧
    stage.drawn? e (Style.descend chain) = some d

/-- The style of an element that is entered is derived from that of its parent. -/
lemma exists_descend_of_entered? {stage : Stage} {tag : Xml.Tag} {s style : Style} {own : Matrix}
    (h : stage.entered? tag s = some (style, own)) (hs : ∃ chain, s = Style.descend chain) :
    ∃ chain, style = Style.descend chain := by
  obtain ⟨chain, rfl⟩ := hs
  unfold entered? at h
  dsimp only at h
  split_ifs at h
  obtain ⟨m, -, heq⟩ := Option.map_eq_some_iff.mp h
  refine ⟨chain ++ [(.ofTag tag, stage.sizes initialFontSize)], ?_⟩
  unfold Style.descend
  rw [List.foldl_append]
  exact (Prod.mk.inj heq).1.symm

/-- What a node of a document contributes is drawn by elements of the document. -/
theorem isDrawn_of_mem_contribution {stage : Stage} {root : Xml.Element}
    (hregistry : stage.registry = (Registry.collect root).1) {n : Xml.Node}
    {ancestors : List Xml.Tag} {s : Style} {m : Matrix} {through : List String}
    (hn : n.elements ancestors ⊆ root.node.elements []) (hs : ∃ chain, s = Style.descend chain)
    {c : DrawCommand} (hc : c ∈ stage.contribution n ancestors s m through) :
    stage.IsDrawn root c.drawable := by
  induction hk : stage.reuseLimit - through.length using Nat.strongRecOn
    generalizing n ancestors s m through with
  | ind k hlevel =>
    induction n using Xml.Node.induction generalizing ancestors s m with
    | text t =>
      rw [contribution] at hc
      cases hc
    | element tag children hchildren =>
      rw [contribution] at hc
      split_ifs at hc with haside
      · cases hc
      split at hc
      · cases hc
      rename_i style own hentered
      have hstyle := exists_descend_of_entered? hentered hs
      have hbelow (child : Xml.Node) (hchild : child ∈ children) :
          child.elements (tag :: ancestors) ⊆ root.node.elements [] := fun x hx =>
        hn (Xml.Node.elements_child_subset hchild ancestors hx)
      dsimp only at hc
      split at hc
      · obtain ⟨child, hchild, hmem⟩ := List.mem_flatMap.mp hc
        exact hchildren child hchild (hbelow child hchild) hstyle hmem
      · split at hc
        · cases hc
        · rename_i child hfind
          have hchild := List.mem_of_find?_eq_some hfind
          exact hchildren child hchild (hbelow child hchild) hstyle hc
      · split at hc
        · cases hc
        · rename_i x hx
          have hlt := length_lt_of_expansion hx
          have hlower : stage.reuseLimit - (x.id :: through).length < k := by
            rw [List.length_cons]
            omega
          have htarget := (expansion_eq_ok_iff.mp hx).2.1
          rw [hregistry] at htarget
          have hlisted := (Registry.mem_elements_of_element? htarget).1
          split_ifs at hc
          · split at hc
            · cases hc
            · rename_i inner own' hentered'
              obtain ⟨child, hchild, hmem⟩ := List.mem_flatMap.mp hc
              refine hlevel _ hlower (fun y hy => ?_)
                (exists_descend_of_entered? hentered' hstyle) hmem rfl
              exact Xml.Node.mem_elements_of_mem hlisted
                (Xml.Node.elements_child_subset hchild _ hy)
          · refine hlevel _ hlower (fun y hy => ?_) hstyle hc rfl
            exact Xml.Node.mem_elements_of_mem hlisted hy
      · obtain ⟨d, hd, rfl⟩ := List.mem_map.mp hc
        obtain ⟨chain, rfl⟩ := hstyle
        have hself := hn (Xml.Node.self_mem_elements ⟨tag, children⟩ ancestors)
        exact ⟨_, ancestors, chain, hself, Option.mem_toList.mp hd⟩

end Stage

namespace Settings

variable {settings : Settings} {raised signal : Bool} {t : Translation}

/-- Every command of a tree that is translated is drawn by an element of the tree. -/
lemma isDrawn_of_mem_translateTree {document : Xml.Document}
    (h : settings.translateTree document raised = (.ok t, signal)) {c : DrawCommand}
    (hc : c ∈ t.drawing.commands) :
    (settings.stage document.root).IsDrawn document.root c.drawable := by
  cases hdraw : settings.definitionsOnly with
  | true =>
    rw [settings.drawing_eq_of_definitionsOnly document hdraw h] at hc
    cases hc
  | false =>
    rw [settings.commands_eq hdraw h, drawing, Stage.commands_nodes_eq_flatMap] at hc
    obtain ⟨n, hn, hmem⟩ := List.mem_flatMap.mp hc
    rw [Stage.commands_node _ _ n _ _ (Nat.zero_add _)] at hmem
    refine Stage.isDrawn_of_mem_contribution rfl ?_ ⟨[(_, _)], rfl⟩ hmem
    exact Xml.Node.elements_child_subset hn []

/-- Every command of a document that is translated is drawn by an element of the document. -/
theorem exists_origin {text : String}
    (h : settings.translateWith text raised = (.ok t, signal)) {c : DrawCommand}
    (hc : c ∈ t.drawing.commands) :
    ∃ document, Xml.Document.read text = .ok document ∧
      (settings.stage document.root).IsDrawn document.root c.drawable := by
  cases hread : Xml.Document.read text with
  | error e =>
    unfold translateWith at h
    rw [hread] at h
    cases (Prod.mk.inj h).1
  | ok document =>
    rw [settings.translateWith_of_read raised hread] at h
    exact ⟨document, rfl, isDrawn_of_mem_translateTree h hc⟩

end Settings

end SvgDisplayList
