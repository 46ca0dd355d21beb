import SvgDisplayList.Proofs.Drawing.Plain
import SvgDisplayList.Proofs.Geometry.Move

/-!
# Groups in the stead of uses

A use is inlined by putting two groups in its stead (`Inlining.node`): the outer one has the
attributes of the use that decide its style and its transform, the inner one moves by the position
of the use, and inside of it stands a copy of the target without identifiers.

`Inlining.Mirrors` relates the nodes of a document in which a use has been inlined to those of the
original one: they are elements with the same plain tag and mirrored children, or the groups in the
stead of the use.  Copies mirror what they are copies of (`Mirrors.of_copy`), and replacing the use
in a tree gives a mirror image of the tree (`Mirrors.of_replace`).
-/

namespace SvgDisplayList

/-- A use that is inlined, with its target and its position. -/
structure Inlining where
  use : Xml.Element
  target : Xml.Element
  /-- The numerals of the position. -/
  xText : String
  yText : String
  x : Float32
  y : Float32

namespace Inlining

/-! ## The groups -/

/-- Whether an attribute decides the style or the transform of its element. -/
def carries (a : Xml.Attribute) : Bool :=
  a.space? == none &&
    (Declarations.presentationAttributes.contains a.name || a.name == "style" ||
      a.name == "transform")

variable (i : Inlining)

/-- The group with the style and the transform of the use. -/
def outer : Xml.Tag :=
  { i.use.tag with name := "g", attributes := i.use.tag.attributes.filter carries }

/-- The group that moves by the position of the use. -/
def inner : Xml.Tag :=
  { i.use.tag with name := "g", attributes := [⟨none, "transform", moveText i.xText i.yText⟩] }

/-- What is put in the stead of the use. -/
def node : Xml.Node := .element i.outer [.element i.inner [i.target.node.anonymous]]

variable {i} {t : Xml.Tag}

/-- Both groups are groups. -/
lemma ofTag_eq_group (huse : ElementKind.ofTag i.use.tag = .use) (hname : t.name = "g")
    (hspace : t.space? = i.use.tag.space?) : ElementKind.ofTag t = .group := by
  unfold ElementKind.ofTag at huse ⊢
  rw [hspace, hname]
  cases hs : i.use.tag.space? with
  | none => rfl
  | some space =>
    rw [hs] at huse
    dsimp only at huse ⊢
    split_ifs at huse ⊢
    · rfl

/-- The outer group is entered as the use is. -/
lemma entered?_outer (h : t.unnumbered = i.outer.unnumbered) (stage : Stage) (s : Style) :
    stage.entered? t s = stage.entered? i.use.tag s := by
  have hattribute : ∀ name,
      (Declarations.presentationAttributes.contains name || name == "style" ||
        name == "transform") = true →
        t.attribute? name = i.use.tag.attribute? name := by
    intro name hname
    rw [Xml.Tag.attribute?_eq_of_unnumbered_eq h]
    refine Xml.Tag.attributeIn?_filter (t := { i.use.tag with name := "g" }) fun a hspace ha => ?_
    rw [carries, hspace, ha, hname]
    rfl
  refine stage.entered?_congr (Declarations.ofTag_congr (fun name hname => hattribute name ?_) ?_)
    ?_
  · rw [List.contains_iff_mem.mpr hname]
    rfl
  · exact hattribute _ (by decide)
  · exact hattribute _ (by decide)

/-- The inner group is entered in the style of the outer one, with the move as its matrix. -/
lemma entered?_inner (h : t.unnumbered = i.inner.unnumbered)
    (hx : finiteNumber? i.xText.toList = some i.x) (hy : finiteNumber? i.yText.toList = some i.y)
    (stage : Stage) (s : Style) :
    stage.entered? t s = some (s, Matrix.identity.mul (.translate i.x i.y)) := by
  have htransform : t.attribute? "transform" = some (moveText i.xText i.yText) := by
    rw [Xml.Tag.attribute?_eq_of_unnumbered_eq h]
    rfl
  have hd : Declarations.ofTag t = Declarations.empty := by
    have hnone : ∀ name, name ≠ "transform" → t.attribute? name = none := by
      intro name hname
      rw [Xml.Tag.attribute?_eq_of_unnumbered_eq h]
      unfold Xml.Tag.attribute? Xml.Tag.attributeIn? inner
      simp [Ne.symm hname]
    have hnames : ∀ name ∈ Declarations.presentationAttributes, name ≠ "transform" := by decide
    have hbare : Declarations.ofTag ⟨0, none, "g", []⟩ = Declarations.empty := rfl
    rw [← hbare]
    exact Declarations.ofTag_congr (fun name hname => hnone name (hnames name hname))
      (hnone _ (by decide))
  unfold Stage.entered? Stage.localMatrix
  rw [hd, htransform]
  dsimp only
  rw [Matrix.ofTransformList_moveText hx hy]
  rfl

/-- What differs from the groups in its places are such groups around such a copy. -/
lemma exists_groups {n' : Xml.Node} (h : n'.unnumbered = i.node.unnumbered) :
    ∃ outer inner copy, n' = .element outer [.element inner [copy]] ∧
      outer.unnumbered = i.outer.unnumbered ∧ inner.unnumbered = i.inner.unnumbered ∧
        copy.unnumbered = i.target.node.anonymous.unnumbered := by
  obtain ⟨outer, children, rfl, houter, hchildren⟩ := Xml.Node.exists_of_unnumbered_eq h
  rw [List.forall₂_cons_left_iff] at hchildren
  obtain ⟨n, _, hn, hnil, rfl⟩ := hchildren
  cases hnil
  obtain ⟨inner, children, rfl, hinner, hchildren⟩ := Xml.Node.exists_of_unnumbered_eq hn
  rw [List.forall₂_cons_left_iff] at hchildren
  obtain ⟨copy, _, hcopy, hnil, rfl⟩ := hchildren
  cases hnil
  exact ⟨outer, inner, copy, rfl, houter, hinner, hcopy⟩

/-! ## Mirror images -/

/-- A node of a document in which a use has been inlined mirrors a node of the original document. -/
inductive Mirrors (i : Inlining) : Xml.Node → Xml.Node → Prop where
  | text (s : String) : Mirrors i (.text s) (.text s)
  | element {tag tag' : Xml.Tag} {children children' : List Xml.Node}
      (tags : tag'.plain = tag.plain) (mirrored : List.Forall₂ (Mirrors i) children children')
      (characters : ElementKind.ofTag tag = .text →
        (Xml.Node.element tag' children').characters = (Xml.Node.element tag children).characters)
      (choices : ElementKind.ofTag tag = .switch →
        children'.map Stage.isChoice = children.map Stage.isChoice) :
      Mirrors i (.element tag children) (.element tag' children')
  | use {n' : Xml.Node} (inlined : n'.unnumbered = i.node.unnumbered) : Mirrors i i.use.node n'

end Inlining

namespace Inlining.Mirrors

variable {i : Inlining}

/-- A copy without identifiers mirrors what it is a copy of. -/
theorem of_copy {n n' : Xml.Node} (h : n'.unnumbered = n.anonymous.unnumbered) :
    Mirrors i n n' := by
  induction n using Xml.Node.induction generalizing n' with
  | text s =>
    rw [Xml.Node.eq_text_of_unnumbered_eq h]
    exact .text s
  | element tag children ih =>
    have hcharacters := Xml.Node.characters_eq_of_unnumbered_eq h
    unfold Xml.Node.anonymous at h hcharacters
    rw [Xml.Node.characters_mapTags] at hcharacters
    rw [Xml.Node.mapTags_element] at h
    obtain ⟨tag', children', rfl, htag, hchildren⟩ := Xml.Node.exists_of_unnumbered_eq h
    rw [List.forall₂_map_left_iff] at hchildren
    refine .element ?_ (forall₂_imp_of_mem hchildren fun c hc c' hc' => ih c hc hc')
      (fun _ => hcharacters) fun _ => ?_
    · rw [Xml.Tag.plain_eq_of_unnumbered_eq htag, Xml.Tag.plain_anonymous]
    · refine map_eq_of_forall₂ hchildren fun c _ c' hc' => ?_
      rw [← Stage.isChoice_mapTags Xml.Tag.SameContent.unnumbered c',
        ← Stage.isChoice_mapTags Xml.Tag.SameContent.anonymous c,
        ← Stage.isChoice_mapTags Xml.Tag.SameContent.unnumbered (c.mapTags _)]
      exact congrArg _ hc'

/-- What stands at the place of the use: the use, in no text, and not as a child of a switch. -/
def AtUse (i : Inlining) (x : Xml.Element × List Xml.Tag) : Prop :=
  x.1.tag.order = i.use.tag.order →
    x.1 = i.use ∧ (∀ a ∈ x.2, ElementKind.ofTag a ≠ .text) ∧ ∀ p ∈ x.2.head?,
    ElementKind.ofTag p ≠ .switch

/-- In a text nothing is replaced. -/
lemma AtUse.replace_eq_self {tag : Xml.Tag} {children : List Xml.Node} {ancestors : List Xml.Tag}
    (hat : ∀ x ∈ (Xml.Node.element tag children).elements ancestors, AtUse i x)
    (horder : tag.order ≠ i.use.tag.order) (htext : ElementKind.ofTag tag = .text) :
    Xml.Node.replace i.use.tag.order i.node (.element tag children) = .element tag children := by
  have hnone : ∀ x ∈ (Xml.Node.element tag children).elements ancestors,
      x.1.tag.order ≠ i.use.tag.order := by
    intro x hx horder'
    rcases Xml.Node.mem_elements_element.mp hx with rfl | ⟨c, hc, hbelow⟩
    · exact horder horder'
    · have htag := Xml.Node.mem_ancestors_of_mem_elements hbelow List.mem_cons_self
      exact (hat x hx horder').2.1 tag htag htext
  exact Xml.Node.replace_eq_self i.node hnone

/-- No child of a switch is replaced, so that the switch chooses it or not as before. -/
lemma AtUse.isChoice_eq {tag : Xml.Tag} {ancestors : List Xml.Tag} {c c' : Xml.Node}
    (hat : ∀ x ∈ c.elements (tag :: ancestors), AtUse i x)
    (hswitch : ElementKind.ofTag tag = .switch)
    (hc : c'.unnumbered = (Xml.Node.replace i.use.tag.order i.node c).unnumbered) :
    Stage.isChoice c' = Stage.isChoice c := by
  rw [← Stage.isChoice_mapTags Xml.Tag.SameContent.unnumbered c']
  change Stage.isChoice c'.unnumbered = _
  rw [hc]
  unfold Xml.Node.unnumbered
  rw [Stage.isChoice_mapTags Xml.Tag.SameContent.unnumbered]
  cases c with
  | text s => rfl
  | element t cs =>
    have hne : t.order ≠ i.use.tag.order := by
      intro heq
      have hself := Xml.Node.self_mem_elements ⟨t, cs⟩ (tag :: ancestors)
      exact (hat _ hself heq).2.2 tag rfl hswitch
    rw [Xml.Node.replace_element, if_neg hne]
    rfl

/-- A tree in which the use is replaced mirrors the tree. -/
theorem of_replace {n n' : Xml.Node} {ancestors : List Xml.Tag}
    (hat : ∀ x ∈ n.elements ancestors, AtUse i x)
    (h : n'.unnumbered = (Xml.Node.replace i.use.tag.order i.node n).unnumbered) :
    Mirrors i n n' := by
  induction n using Xml.Node.induction generalizing n' ancestors with
  | text s =>
    rw [Xml.Node.eq_text_of_unnumbered_eq h]
    exact .text s
  | element tag children ih =>
    have hself := hat _ (Xml.Node.mem_elements_element.mpr (Or.inl rfl))
    have hbelow : ∀ c ∈ children, ∀ x ∈ c.elements (tag :: ancestors), AtUse i x :=
      fun c hc x hx => hat x (Xml.Node.elements_child_subset hc ancestors hx)
    by_cases horder : tag.order = i.use.tag.order
    · have hnode : Xml.Node.element tag children = i.use.node :=
        congrArg Xml.Element.node (hself horder).1
      rw [Xml.Node.replace_element, if_pos horder] at h
      rw [hnode]
      exact .use h
    · have hreplaced := h
      rw [Xml.Node.replace_element, if_neg horder] at hreplaced
      obtain ⟨tag', children', rfl, htag, hchildren⟩ := Xml.Node.exists_of_unnumbered_eq hreplaced
      rw [List.forall₂_map_left_iff] at hchildren
      refine .element (Xml.Tag.plain_eq_of_unnumbered_eq htag)
        (forall₂_imp_of_mem hchildren fun c hc c' hc' => ih c hc (hbelow c hc) hc')
        (fun htext => ?_) fun hswitch => ?_
      · rw [AtUse.replace_eq_self hat horder htext] at h
        exact Xml.Node.characters_eq_of_unnumbered_eq h
      · exact map_eq_of_forall₂ hchildren fun c hc c' hc' =>
          AtUse.isChoice_eq (hbelow c hc) hswitch hc'

end Inlining.Mirrors

end SvgDisplayList
