import SvgDisplayList.Proofs.Drawing.Occurrence
import SvgDisplayList.Proofs.Scene.Correspondence
import SvgDisplayList.Proofs.Style.Visibility

/-!
# Drawings without declarations of visibility

If all declarations of visibility are taken out of a document (`Xml.Document.shown`), its drawing
comes to the same shapes, texts and images, in the same styles made visible and under the same
matrices (`Stage.occurrences_shown`): nothing on the way to them asks whether a style is visible.
An occurrence is visible as the nearest declaration along its path says
(`Stage.visible_of_mem_occurrences`), and one that is not draws nothing
(`Stage.command?_eq`).
-/

namespace SvgDisplayList

open Xml.Tag (SameContent)

/-! ## Documents without declarations of visibility -/

namespace Xml

/-- The tag without its declarations of visibility. -/
def Tag.shown (t : Tag) : Tag := t.undeclare visibilityProperty

/-- The tree without declarations of visibility. -/
def Node.shown (n : Node) : Node := n.mapTags Tag.shown

/-- The element without declarations of visibility. -/
def Element.shown (e : Element) : Element := e.mapTags Tag.shown

/-- The document without declarations of visibility. -/
def Document.shown (d : Document) : Document := ⟨d.root.shown, d.beside.map Element.shown⟩

/-- Without declarations of visibility a tag has its content. -/
lemma Tag.sameContent_shown (t : Tag) : SameContent t t.shown :=
  sameContent_undeclare (by decide) t

/-- Without declarations of visibility a tag has its other attributes. -/
lemma Tag.attribute?_shown {name : String} (t : Tag)
    (h : name ≠ visibilityProperty ∧ name ≠ "style") :
    t.shown.attribute? name = t.attribute? name :=
  attributeIn?_undeclare_of_ne (Or.inr h)

end Xml

/-- What is left of a tag declares what the tag declares of other properties. -/
lemma Declarations.ofTag_shown (t : Xml.Tag) :
    ofTag t.shown = (ofTag t).without visibilityProperty :=
  ofTag_undeclare (by decide) t

/-- A gradient is read alike without declarations of visibility. -/
lemma Gradient.ofElement_shown (kind : GradientKind) (id : String) (e : Xml.Element) :
    ofElement kind id e.shown = ofElement kind id e := by
  have hcontent : SameContent e.tag e.shown.tag := e.tag.sameContent_shown
  have hstop : ∀ t : Xml.Tag, ∀ floor, GradientStop.ofTag floor t.shown =
      GradientStop.ofTag floor t := by
    intro t floor
    have hcolor : (Declarations.ofTag t.shown).get? "stop-color" =
        (Declarations.ofTag t).get? "stop-color" := by
      rw [Declarations.ofTag_shown]
      exact Declarations.get?_without _ _ (by decide)
    have hopacity : (Declarations.ofTag t.shown).get? "stop-opacity" =
        (Declarations.ofTag t).get? "stop-opacity" := by
      rw [Declarations.ofTag_shown]
      exact Declarations.get?_without _ _ (by decide)
    unfold GradientStop.ofTag
    dsimp only
    rw [hcolor, hopacity, t.sameContent_shown.attribute?_eq (by decide)]
  have hstops : GradientStop.ramp 0 (e.shown.childElements.filter (·.name == "stop")) =
      GradientStop.ramp 0 (e.childElements.filter (·.name == "stop")) := by
    refine GradientStop.ramp_congr ?_ 0
    unfold Xml.Element.shown
    rw [Xml.Element.childElements_mapTags, List.filter_map, List.forall₂_map_right_iff]
    exact List.forall₂_same.mpr fun c _ => hstop c.tag
  unfold ofElement
  rw [GradientAttributes.ofTag_congr hcontent, hcontent.reference?_eq, hstops]

/-! ## What hidden elements draw -/

namespace Stage

/-- An element that is hidden draws nothing. -/
lemma drawable?_of_hidden {style : Style} (h : style.visible = false) (e : Xml.Element)
    (registry : Registry) (fonts : FontSource) (width height : Float32) :
    drawable? e style registry fonts width height = none := by
  unfold drawable?
  cases ElementKind.ofTag e.tag with
  | shape s =>
    dsimp only
    cases s.subpaths e.tag ⟨style.fontSize, width, height⟩ with
    | error err => rfl
    | ok subpaths =>
      have hnone : PathCommand.ofSubpaths subpaths style registry
          ⟨style.fontSize, width, height⟩ = (none, []) := by
        unfold PathCommand.ofSubpaths
        rw [h, Bool.not_false, Bool.or_true, if_pos rfl]
      change (PathCommand.ofSubpaths _ _ _ _).1.map Drawable.path = none
      rw [hnone, Option.map_none]
  | text =>
    dsimp only
    unfold TextCommand.ofElement
    cases TextCommand.positionOf e.tag ⟨style.fontSize, width, height⟩ with
    | error err => rfl
    | ok position =>
      simp only [h, Bool.not_false, Bool.or_true, if_true]
      rfl
  | image =>
    dsimp only
    rw [h, if_neg Bool.false_ne_true]
  | group | switch | use | definition | unsupported | ignored | unknown => rfl

end Stage

namespace Occurrence

/-- Whether the nearest declaration along the path of an occurrence makes it visible. -/
def isVisible (o : Occurrence) : Bool := visibleAlong o.path

/-- The occurrence made visible. -/
def asVisible (o : Occurrence) : Occurrence := { o with style := o.style.withVisible true }

/-- The occurrence in the document without declarations of visibility. -/
def shown (o : Occurrence) : Occurrence :=
  ⟨o.element.shown, o.style.withVisible true, o.matrix, o.path.map Xml.Tag.shown⟩

end Occurrence

namespace Stage

variable {stage stage' : Stage}

/-- An occurrence draws what it draws when it is made visible, if it is visible, and else
nothing. -/
lemma command?_eq {o : Occurrence} (h : o.style.visible = o.isVisible) :
    stage.command? o = if o.isVisible then stage.command? o.asVisible else none := by
  cases hvisible : o.isVisible with
  | true =>
    have hsame : o.asVisible = o := by
      rw [hvisible] at h
      unfold Occurrence.asVisible Style.withVisible
      rw [← h]
    rw [hsame, if_pos rfl]
  | false =>
    rw [hvisible] at h
    unfold command? drawn?
    rw [drawable?_of_hidden h, if_neg Bool.false_ne_true, Option.map_none]

/-- An element that is entered is as visible as the nearest declaration says. -/
lemma visible_of_entered? {tag : Xml.Tag} {s style : Style} {own : Matrix} {path : List Xml.Tag}
    (hs : s.visible = visibleAlong path) (h : stage.entered? tag s = some (style, own)) :
    style.visible = visibleAlong (tag :: path) := by
  unfold entered? at h
  dsimp only at h
  split_ifs at h
  obtain ⟨m, -, heq⟩ := Option.map_eq_some_iff.mp h
  rw [← (Prod.mk.inj heq).1]
  exact s.visible_derive_ofTag _ hs tag

/-- Every occurrence is as visible as the nearest declaration along its path says. -/
theorem visible_of_mem_occurrences {n : Xml.Node} {ancestors : List Xml.Tag} {s : Style}
    {m : Matrix} {chain : List String} {path : List Xml.Tag} (hs : s.visible = visibleAlong path) :
    ∀ o ∈ stage.occurrences n ancestors s m chain path, o.style.visible = o.isVisible := by
  fun_induction occurrences stage n ancestors s m chain path with
  | case1 | case2 | case3 | case5 | case7 | case8 =>
    intro o ho
    cases ho
  | case4 ancestors s m chain path tag children haside style own hentered matrix hkind ih =>
    intro o ho
    obtain ⟨c, hc, hmem⟩ := List.mem_flatMap.mp ho
    exact ih c hc (visible_of_entered? hs hentered) o hmem
  | case6 ancestors s m chain path tag children haside style own hentered matrix hkind c hfind ih =>
    exact ih (visible_of_entered? hs hentered)
  | case9 ancestors s m chain path tag children haside style own hentered matrix hkind x hx moved
      hsymbol inner own' hinner ih =>
    intro o ho
    obtain ⟨c, hc, hmem⟩ := List.mem_flatMap.mp ho
    exact ih c (visible_of_entered? (visible_of_entered? hs hentered) hinner) o hmem
  | case10 ancestors s m chain path tag children haside style own hentered matrix hkind x hx moved
      hsymbol ih =>
    exact ih (visible_of_entered? hs hentered)
  | case11 ancestors s m chain path tag children haside style own hentered =>
    intro o ho
    cases List.mem_singleton.mp ho
    exact visible_of_entered? hs hentered

/-! ## Stages without declarations of visibility -/

variable (stage stage') in
/-- The second stage is that of the first document without declarations of visibility. -/
structure Shows : Prop where
  gradient : ∀ id, stage'.registry.gradient? id = stage.registry.gradient? id
  element : ∀ id, stage'.registry.element? id =
    (stage.registry.element? id).map fun x => (x.1.shown, x.2.map Xml.Tag.shown)
  fonts : stage'.fonts = stage.fonts
  width : stage'.viewportWidth = stage.viewportWidth
  height : stage'.viewportHeight = stage.viewportHeight
  limit : stage'.reuseLimit = stage.reuseLimit

/-- The expansion of a use in the document without declarations of visibility. -/
def Expansion.shown (x : Expansion) : Expansion :=
  { x with target := x.target.shown, ancestors := x.ancestors.map Xml.Tag.shown }

namespace Shows

variable (h : stage.Shows stage')

include h

/-- Lengths refer to the same sizes. -/
lemma sizes_eq (fontSize : Float32) : stage'.sizes fontSize = stage.sizes fontSize := by
  unfold sizes
  rw [h.width, h.height]

/-- An element is entered in its style made visible. -/
lemma entered?_shown (tag : Xml.Tag) (s : Style) :
    stage'.entered? tag.shown (s.withVisible true) =
      (stage.entered? tag s).map fun x => (x.1.withVisible true, x.2) := by
  have hdisplay : (Declarations.ofTag tag.shown).displayNone =
      (Declarations.ofTag tag).displayNone := by
    unfold Declarations.displayNone
    rw [Declarations.ofTag_shown, Declarations.get?_without _ _ (by decide)]
  have hmatrix : localMatrix tag.shown = localMatrix tag := by
    unfold localMatrix
    rw [tag.sameContent_shown.attribute?_eq (by decide)]
  unfold entered?
  dsimp only
  rw [hdisplay, hmatrix, h.sizes_eq, Declarations.ofTag_shown, ← Style.withVisible_derive]
  split_ifs
  · rfl
  · rw [Option.map_map]
    rfl

/-- A use is expanded alike. -/
lemma expansion_shown (tag : Xml.Tag) (ancestors : List Xml.Tag) (style : Style)
    (chain : List String) :
    stage'.expansion tag.shown (ancestors.map Xml.Tag.shown) (style.withVisible true) chain =
      (stage.expansion tag ancestors style chain).map Expansion.shown := by
  have hcontent := tag.sameContent_shown
  unfold expansion
  rw [hcontent.reference?_eq, useLengths_congr hcontent, Style.fontSize_withVisible, h.sizes_eq,
    h.limit]
  cases tag.reference? with
  | none => rfl
  | some id =>
    dsimp only
    rw [h.element id]
    cases stage.registry.element? id with
    | none => rfl
    | some x =>
      obtain ⟨target, above⟩ := x
      have hany : (tag.shown :: ancestors.map Xml.Tag.shown).any
          (·.order == target.shown.tag.order) =
            (tag :: ancestors).any (·.order == target.tag.order) := by
        rw [← List.map_cons, List.any_map]
        rfl
      rw [Option.map_some]
      dsimp only
      rw [hany]
      split_ifs
      · rfl
      · rfl
      · cases useLengths tag (stage.sizes style.fontSize) <;> rfl

/-- A shape, a text or an image draws the same in the same style. -/
lemma drawn?_shown (e : Xml.Element) (style : Style) :
    stage'.drawn? e.shown style = stage.drawn? e style := by
  unfold drawn?
  rw [h.fonts, h.width, h.height]
  exact drawable?_congr h.gradient e.tag.sameContent_shown (fun _ => e.characters_mapTags) _ _ _ _

/-- An occurrence draws there what it draws here when it is made visible. -/
lemma command?_shown (o : Occurrence) : stage'.command? o.shown = stage.command? o.asVisible := by
  unfold command?
  exact congrArg (Option.map _) (h.drawn?_shown o.element (o.style.withVisible true))

/-- Without declarations of visibility the drawing of a node comes to the same, made visible. -/
theorem occurrences_shown (n : Xml.Node) (ancestors : List Xml.Tag) (s : Style) (m : Matrix)
    (chain : List String) (path : List Xml.Tag) :
    stage'.occurrences n.shown (ancestors.map Xml.Tag.shown) (s.withVisible true) m chain
        (path.map Xml.Tag.shown) =
      (stage.occurrences n ancestors s m chain path).map Occurrence.shown := by
  have hkinds (tag : Xml.Tag) : ElementKind.ofTag tag.shown = ElementKind.ofTag tag :=
    ElementKind.ofTag_congr tag.sameContent_shown
  have hasides (tag : Xml.Tag) : (aside? tag.shown).isSome = (aside? tag).isSome :=
    aside?_isSome_congr (hkinds tag)
  have hnode (tag : Xml.Tag) (children : List Xml.Node) :
      (Xml.Node.element tag children).shown = .element tag.shown (children.map Xml.Node.shown) :=
    Xml.Node.mapTags_element tag children
  have hfinds (children : List Xml.Node) : (children.map Xml.Node.shown).find? isChoice =
      (children.find? isChoice).map Xml.Node.shown := by
    have hchoice : isChoice ∘ Xml.Node.shown = isChoice :=
      funext fun c => isChoice_mapTags Xml.Tag.sameContent_shown c
    rw [List.find?_map, hchoice]
  fun_induction occurrences stage n ancestors s m chain path with
  | case1 =>
    unfold Xml.Node.shown
    rw [Xml.Node.mapTags_text, occurrences]
    rfl
  | case2 ancestors s m chain path tag children haside =>
    rw [hnode, occurrences_element, hasides, if_pos haside]
    rfl
  | case3 ancestors s m chain path tag children haside hentered =>
    rw [hnode, occurrences_element, hasides, if_neg haside, h.entered?_shown, hentered]
    rfl
  | case4 ancestors s m chain path tag children haside style own hentered matrix hkind ih =>
    rw [hnode, occurrences_element, hasides, if_neg haside, h.entered?_shown, hentered, hkinds]
    simp only [Option.map_some, hkind]
    rw [List.flatMap_map, List.map_flatMap]
    exact List.flatMap_congr ih
  | case5 ancestors s m chain path tag children haside style own hentered hkind hfind =>
    rw [hnode, occurrences_element, hasides, if_neg haside, h.entered?_shown, hentered, hkinds]
    simp only [Option.map_some, hkind, hfinds, hfind]
    rfl
  | case6 ancestors s m chain path tag children haside style own hentered matrix hkind c hfind ih =>
    rw [hnode, occurrences_element, hasides, if_neg haside, h.entered?_shown, hentered, hkinds]
    simp only [Option.map_some, hkind, hfinds, hfind]
    exact ih
  | case7 ancestors s m chain path tag children haside style own hentered hkind e hx =>
    rw [hnode, occurrences_element, hasides, if_neg haside, h.entered?_shown, hentered, hkinds]
    simp only [Option.map_some, hkind, h.expansion_shown, hx]
    rfl
  | case8 ancestors s m chain path tag children haside style own hentered hkind x hx hsymbol
      hnone =>
    rw [hnode, occurrences_element, hasides, if_neg haside, h.entered?_shown, hentered, hkinds]
    simp only [Option.map_some, hkind, h.expansion_shown, hx, Except.map]
    have hsymbol' : x.shown.target.name = "symbol" := hsymbol
    have hnone' : stage'.entered? x.shown.target.tag (style.withVisible true) = none := by
      rw [show x.shown.target.tag = x.target.tag.shown from rfl, h.entered?_shown, hnone]
      rfl
    rw [if_pos hsymbol', hnone']
    rfl
  | case9 ancestors s m chain path tag children haside style own hentered matrix hkind x hx moved
      hsymbol inner own' hinner ih =>
    rw [hnode, occurrences_element, hasides, if_neg haside, h.entered?_shown, hentered, hkinds]
    simp only [Option.map_some, hkind, h.expansion_shown, hx, Except.map]
    have hsymbol' : x.shown.target.name = "symbol" := hsymbol
    have hinner' : stage'.entered? x.shown.target.tag (style.withVisible true) =
        some (inner.withVisible true, own') := by
      rw [show x.shown.target.tag = x.target.tag.shown from rfl, h.entered?_shown, hinner]
      rfl
    have hfit : symbolFit x.shown.target.tag x.shown.width x.shown.height =
        symbolFit x.target.tag x.width x.height :=
      symbolFit_congr x.target.tag.sameContent_shown _ _
    have hchildren : x.shown.target.children = x.target.children.map Xml.Node.shown := rfl
    rw [if_pos hsymbol', hinner']
    dsimp only
    rw [hfit, hchildren, List.flatMap_map, List.map_flatMap]
    exact List.flatMap_congr fun c _ => ih c
  | case10 ancestors s m chain path tag children haside style own hentered matrix hkind x hx moved
      hsymbol ih =>
    rw [hnode, occurrences_element, hasides, if_neg haside, h.entered?_shown, hentered, hkinds]
    simp only [Option.map_some, hkind, h.expansion_shown, hx, Except.map]
    have hsymbol' : ¬ x.shown.target.name = "symbol" := hsymbol
    have hnode' : x.shown.target.node = x.target.node.shown := x.target.node_mapTags
    rw [if_neg hsymbol', hnode']
    exact ih
  | case11 ancestors s m chain path tag children haside style own hentered matrix hgroup hswitch
      huse =>
    rw [hnode, occurrences_element, hasides, if_neg haside, h.entered?_shown, hentered, hkinds]
    simp only [Option.map_some]
    rfl

end Shows

end Stage

end SvgDisplayList
