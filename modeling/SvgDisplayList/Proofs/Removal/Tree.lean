import SvgDisplayList.Proofs.Drawing.Bare

/-!
# Trees without an element

`Xml.Node.without` takes the element of a place out of a tree, with all that stands below it;
nothing else changes, not even a place.  If the element is a child of the root element or of a group
or a symbol, stands in no text, and neither it nor anything below it has an identifier
(`Xml.Element.Detachable`), then the tree without it has the same gradients, and the same elements
but for the one that has been taken out, under the same identifiers, and the same is reported of its
definitions (`Registry.alike_without`).
-/

namespace SvgDisplayList

namespace Xml

namespace Node

/-- Whether a node is the element of a place. -/
def isAt (order : Nat) : Node → Bool
  | element tag _ => tag.order == order
  | text _ => false

/-- The tree of a node without the element of a place that stands below it. -/
def without (order : Nat) : Node → Node
  | text s => text s
  | element tag children => element tag (withoutOf children)
where
  withoutOf : List Node → List Node
    | [] => []
    | text s :: ns => text s :: withoutOf ns
    | element tag children :: ns =>
      if tag.order = order then withoutOf ns
      else (element tag children).without order :: withoutOf ns

/-- The nodes of a list without the element of a place, there or below. -/
def remaining (order : Nat) (ns : List Node) : List Node :=
  (ns.filter fun n => !n.isAt order).map (without order)

variable {order : Nat}

/-- The element of the place goes with all that stands below it. -/
lemma remaining_cons_of_isAt {n : Node} (h : n.isAt order = true) (ns : List Node) :
    remaining order (n :: ns) = remaining order ns := by
  unfold remaining
  rw [List.filter_cons_of_neg (by simp [h])]

/-- Every other node stays, without the element of the place. -/
lemma remaining_cons_of_not_isAt {n : Node} (h : n.isAt order = false) (ns : List Node) :
    remaining order (n :: ns) = n.without order :: remaining order ns := by
  unfold remaining
  rw [List.filter_cons_of_pos (by simp [h]), List.map_cons]

/-- An element keeps its tag and those of its children that remain. -/
lemma without_element (tag : Tag) (children : List Node) :
    (element tag children).without order = element tag (remaining order children) := by
  have hchildren : without.withoutOf order children = remaining order children := by
    induction children with
    | nil => rfl
    | cons n ns ih =>
      cases n with
      | text s => rw [without.withoutOf, ih, remaining_cons_of_not_isAt rfl, without]
      | element tag children =>
        rw [without.withoutOf, ih]
        by_cases hn : tag.order = order
        · rw [if_pos hn, remaining_cons_of_isAt (by simpa [isAt] using hn)]
        · rw [if_neg hn, remaining_cons_of_not_isAt (by simpa [isAt] using hn)]
  rw [without, hchildren]

end Node

namespace Element

/-- The element without the element of a place that stands below it. -/
def without (order : Nat) (e : Element) : Element := ⟨e.tag, Node.remaining order e.children⟩

variable {order : Nat}

@[simp] lemma tag_without (e : Element) : (e.without order).tag = e.tag := rfl

@[simp] lemma name_without (e : Element) : (e.without order).name = e.name := rfl

/-- The tree of an element without another one. -/
lemma node_without (e : Element) : (e.without order).node = e.node.without order :=
  (Node.without_element e.tag e.children).symm

/-- The child elements that remain. -/
lemma childElements_without (e : Element) :
    (e.without order).childElements =
      (e.childElements.filter fun c => c.tag.order != order).map (without order) := by
  unfold without childElements
  dsimp only
  induction e.children with
  | nil => rfl
  | cons n ns ih =>
    cases n with
    | text s =>
      rw [Node.remaining_cons_of_not_isAt rfl]
      exact ih
    | element tag children =>
      rw [List.filterMap_cons_some (f := Node.element?) (b := ⟨tag, children⟩) rfl]
      by_cases hn : tag.order = order
      · rw [Node.remaining_cons_of_isAt (by simpa [Node.isAt] using hn), ih,
          List.filter_cons_of_neg (by simpa using hn)]
      · rw [Node.remaining_cons_of_not_isAt (by simpa [Node.isAt] using hn),
          List.filter_cons_of_pos (by simpa using hn), List.map_cons, ← ih, Node.without_element]
        rfl

end Element

namespace Node

variable {order : Nat}

/-- A tree without an element of the place stays as it is. -/
lemma without_eq_self {n : Node} (base : List Tag)
    (h : ∀ x ∈ n.elements base, x.1.tag.order ≠ order) : n.without order = n := by
  induction n using Node.induction generalizing base with
  | text s => rfl
  | element tag children ih =>
    have hchildren : remaining order children = children := by
      have hkeep : children.filter (fun n => !n.isAt order) = children := by
        refine List.filter_eq_self.mpr fun c hc => ?_
        cases c with
        | text s => rfl
        | element tag' children' =>
          have hself : (⟨tag', children'⟩, tag :: base) ∈ (element tag children).elements base :=
            elements_child_subset hc base (self_mem_elements ⟨tag', children'⟩ _)
          simpa [isAt] using h _ hself
      unfold remaining
      rw [hkeep]
      refine (List.map_congr_left fun c hc => ?_).trans (List.map_id children)
      exact ih c hc _ fun x hx => h x (elements_child_subset hc base hx)
    rw [without_element, hchildren]

/-- The places that remain are in the same order as before. -/
lemma places_without_sublist (n : Node) : (n.without order).places.Sublist n.places := by
  have hplaces : ∀ ns : List Node, (∀ n ∈ ns, (n.without order).places.Sublist n.places) →
      ((remaining order ns).flatMap places).Sublist (ns.flatMap places) := by
    intro ns hns
    induction ns with
    | nil => exact .slnil
    | cons n ns ih =>
      obtain ⟨hn, hns⟩ := List.forall_mem_cons.mp hns
      cases hat : n.isAt order with
      | true =>
        rw [remaining_cons_of_isAt hat, List.flatMap_cons]
        exact (ih hns).trans (List.sublist_append_right _ _)
      | false =>
        rw [remaining_cons_of_not_isAt hat, List.flatMap_cons, List.flatMap_cons]
        exact hn.append (ih hns)
  induction n using Node.induction with
  | text s => exact .slnil
  | element tag children ih =>
    have helement : ∀ ns : List Node, (element tag ns).places = tag.order :: ns.flatMap places := by
      intro ns
      unfold places
      rw [tags_element, List.map_cons, List.map_flatMap]
    rw [without_element, helement, helement]
    exact (hplaces children ih).cons_cons _

end Node

/-- A numbered tree stays numbered. -/
lemma Element.Numbered.without {root : Element} (h : root.Numbered) (order : Nat) :
    (root.without order).Numbered := by
  rw [numbered_iff] at h ⊢
  rw [Element.node_without]
  exact h.sublist (Node.places_without_sublist root.node)

/-! ## Elements that can be taken out -/

namespace Element

/-- An element of a tree that stands below the root element, a group or a symbol, with no text
around it, and neither it nor anything below it has an identifier. -/
structure Detachable (root e : Element) (above : List Tag) : Prop where
  listed : (e, above) ∈ root.node.elements []
  parent : above = [root.tag] ∨
    ∃ parent rest, above = parent :: rest ∧ parent.name ∈ ["g", "a", "symbol"]
  textless : ∀ a ∈ above, ElementKind.ofTag a ≠ .text
  nameless : ∀ x ∈ e.node.elements above, Collection.identifier? x.1 = none

variable {root e : Element} {above : List Tag}

/-- What has to be known of the element of a place that is taken out of a tree: it is not the root
element, it is no child of a switch or of a gradient, it stands in no text, and nothing in it is
registered. -/
structure Loose (root : Element) (order : Nat) : Prop where
  notRoot : root.tag.order ≠ order
  switch : ∀ p above, (p, above) ∈ root.node.elements [] → ElementKind.ofTag p.tag = .switch →
    ∀ c ∈ p.children, c.isAt order = false
  gradient : ∀ p above, (p, above) ∈ root.node.elements [] →
    (GradientKind.ofElementName? p.name).isSome → ∀ c ∈ p.children, c.isAt order = false
  text : ∀ p above, (p, above) ∈ root.node.elements [] → ElementKind.ofTag p.tag = .text →
    p.tag.order ≠ order → p.without order = p
  nameless : ∀ x ∈ root.node.elements [], x.1.tag.order = order →
    ∀ y ∈ x.1.node.elements x.2, Collection.identifier? y.1 = none

namespace Detachable

/-- Where the element is listed below a parent, the parent is the one that it has. -/
lemma above_eq (h : Detachable root e above) (hnumbered : root.Numbered) {p c : Element}
    {pAbove : List Tag} (hp : (p, pAbove) ∈ root.node.elements []) (hc : c.node ∈ p.children)
    (hat : c.tag.order = e.tag.order) : above = p.tag :: pAbove := by
  have hmem : (c, p.tag :: pAbove) ∈ root.node.elements [] :=
    Node.mem_elements_of_mem hp
      (Node.elements_child_subset hc pAbove (Node.self_mem_elements c _))
  exact (Prod.mk.inj (hnumbered.eq_of_order_eq h.listed hmem hat.symm)).2

/-- The parent has the name of the root element, of a group or of a symbol. -/
lemma parent_name (h : Detachable root e above) (hnumbered : root.Numbered)
    (hsvg : root.name = "svg") {p : Element} {pAbove : List Tag}
    (hp : (p, pAbove) ∈ root.node.elements []) {c : Node} (hc : c ∈ p.children)
    (hat : c.isAt e.tag.order = true) : p.name ∈ ["svg", "g", "a", "symbol"] := by
  cases c with
  | text s => cases hat
  | element tag children =>
    have habove := h.above_eq hnumbered (c := ⟨tag, children⟩) hp hc
      (by simpa [Node.isAt] using hat)
    rcases h.parent with hroot | ⟨parent, rest, hparent, hname⟩
    · rw [habove] at hroot
      have htag : p.tag = root.tag := (List.cons.inj hroot).1
      change p.tag.name ∈ _
      rw [htag, show root.tag.name = "svg" from hsvg]
      exact List.mem_cons_self
    · rw [habove] at hparent
      have htag : p.tag = parent := (List.cons.inj hparent).1
      change p.tag.name ∈ _
      rw [htag]
      exact List.mem_cons_of_mem _ hname

/-- The element can be taken out of a numbered tree. -/
theorem loose (h : Detachable root e above) (hnumbered : root.Numbered)
    (hsvg : root.name = "svg") : Loose root e.tag.order := by
  have hself := Node.self_mem_elements root []
  have hnotAt : ∀ p pAbove, (p, pAbove) ∈ root.node.elements [] →
      p.name ∉ ["svg", "g", "a", "symbol"] → ∀ c ∈ p.children, c.isAt e.tag.order = false := by
    intro p pAbove hp hname c hc
    by_contra hat
    rw [Bool.not_eq_false] at hat
    exact hname (h.parent_name hnumbered hsvg hp hc hat)
  refine ⟨fun hat => ?_, fun p pAbove hp hkind => ?_, fun p pAbove hp hgradient => ?_,
    fun p pAbove hp hkind hne => ?_, fun x hx hat => ?_⟩
  · -- the root element has no ancestors
    have hsame := hnumbered.eq_of_order_eq hself h.listed hat
    obtain ⟨-, hnil⟩ := Prod.mk.inj hsame
    rcases h.parent with hroot | ⟨parent, rest, hparent, -⟩
    · rw [← hnil] at hroot
      cases hroot
    · rw [← hnil] at hparent
      cases hparent
  · refine hnotAt p pAbove hp fun hname => ?_
    refine ElementKind.ofTag_ne_switch (t := p.tag) (fun hswitch => ?_) hkind
    rw [show p.name = "switch" from hswitch] at hname
    exact absurd hname (by decide)
  · refine hnotAt p pAbove hp fun hname => ?_
    have hnone : ∀ name ∈ ["svg", "g", "a", "symbol"], GradientKind.ofElementName? name = none := by
      decide
    rw [hnone _ hname] at hgradient
    cases hgradient
  · -- whatever is listed below a text has the text above it
    apply Element.node_injective
    rw [node_without]
    refine Node.without_eq_self pAbove fun x hx hat => ?_
    have hmem := Node.mem_elements_of_mem hp hx
    obtain rfl := hnumbered.eq_of_order_eq hmem h.listed hat
    rcases Node.mem_elements_element.mp hx with heq | ⟨c, hc, hx⟩
    · obtain ⟨rfl, -⟩ := Prod.mk.inj heq
      exact hne rfl
    · exact h.textless p.tag (Node.mem_ancestors_of_mem_elements hx List.mem_cons_self) hkind
  · obtain rfl := hnumbered.eq_of_order_eq hx h.listed hat
    exact h.nameless

end Detachable

end Element

end Xml

/-! ## Definitions -/

open Collection

/-- An element and its ancestors, beside the same element without another one. -/
def Xml.Element.Loses (order : Nat) (x x' : Xml.Element × List Xml.Tag) : Prop :=
  x' = (x.1.without order, x.2)

namespace Registry

variable {root : Xml.Element} {order : Nat}

/-- A gradient has the same stops. -/
lemma ofElement_without (h : root.Loose order) {p : Xml.Element} {above : List Xml.Tag}
    (hp : (p, above) ∈ root.node.elements []) {kind : GradientKind}
    (hkind : GradientKind.ofElementName? p.name = some kind) (id : String) :
    Gradient.ofElement kind id (p.without order) = Gradient.ofElement kind id p := by
  have hnotAt := h.gradient p above hp (by rw [hkind]; rfl)
  have hkeep : p.childElements.filter (fun c => c.tag.order != order) = p.childElements := by
    refine List.filter_eq_self.mpr fun c hc => ?_
    obtain ⟨n, hn, hc⟩ := List.mem_filterMap.mp hc
    cases n with
    | text s => cases hc
    | element tag children =>
      cases hc
      simpa [Xml.Node.isAt] using hnotAt _ hn
  have hstops : List.Forall₂ (fun c c' : Xml.Element => c'.tag.plain = c.tag.plain)
      (p.childElements.filter (·.name == "stop"))
      ((p.without order).childElements.filter (·.name == "stop")) := by
    rw [Xml.Element.childElements_without, hkeep, List.filter_map, List.forall₂_map_right_iff]
    exact List.forall₂_same.mpr fun _ _ => rfl
  unfold Gradient.ofElement
  rw [GradientStop.ramp_eq_of_plain_eq hstops]
  rfl

/-- What is found in a list of elements, one after the other. -/
lemma findingsOf_append (xs ys : List (Xml.Element × List Xml.Tag)) :
    findingsOf (xs ++ ys) = findingsOf xs ++ findingsOf ys := List.filterMap_append

/-- Nothing is found among elements without identifiers. -/
lemma findingsOf_eq_nil {xs : List (Xml.Element × List Xml.Tag)}
    (h : ∀ x ∈ xs, identifier? x.1 = none) : findingsOf xs = [] := by
  refine List.filterMap_eq_nil_iff.mpr fun x hx => ?_
  unfold finding?
  rw [h x hx]
  rfl

/-- The same is found in the tree without an element, but for the elements that have lost it. -/
lemma forall₂_findingsOf_without (h : root.Loose order) {n : Xml.Node} {base : List Xml.Tag}
    (hn : n.elements base ⊆ root.node.elements []) :
    List.Forall₂ (Finding.Alike (Xml.Element.Loses order)) (findingsOf (n.elements base))
      (findingsOf ((n.without order).elements base)) := by
  induction n using Xml.Node.induction generalizing base with
  | text s => exact .nil
  | element tag children ih =>
    have hself := hn (Xml.Node.self_mem_elements ⟨tag, children⟩ base)
    have hhead : List.Forall₂ (Finding.Alike (Xml.Element.Loses order))
        (findingsOf [(⟨tag, children⟩, base)])
        (findingsOf [((⟨tag, children⟩ : Xml.Element).without order, base)]) := by
      refine List.rel_filterMap (fun {x x'} hx => ?_)
        (R := fun x x' => x ∈ root.node.elements [] ∧ x' = (x.1.without order, x.2))
        (.cons ⟨hself, rfl⟩ .nil)
      obtain ⟨hmem, rfl⟩ := hx
      exact rel_finding? rfl rfl fun kind id hkind => ofElement_without h hmem hkind id
    have hchildren : ∀ ns ⊆ children, List.Forall₂ (Finding.Alike (Xml.Element.Loses order))
        (findingsOf (ns.flatMap (·.elements (tag :: base))))
        (findingsOf ((Xml.Node.remaining order ns).flatMap (·.elements (tag :: base)))) := by
      intro ns hns
      induction ns with
      | nil => exact .nil
      | cons c ns ihns =>
        obtain ⟨hc, hns⟩ := List.cons_subset.mp hns
        have hbelow := List.Subset.trans (Xml.Node.elements_child_subset hc base) hn
        rw [List.flatMap_cons, findingsOf_append]
        cases hat : c.isAt order with
        | true =>
          have hnone : findingsOf (c.elements (tag :: base)) = [] := by
            cases c with
            | text s => rfl
            | element tag' children' =>
              have hmem := hbelow (Xml.Node.self_mem_elements ⟨tag', children'⟩ _)
              exact findingsOf_eq_nil
                (h.nameless _ hmem (by simpa [Xml.Node.isAt] using hat))
          rw [hnone, List.nil_append, Xml.Node.remaining_cons_of_isAt hat]
          exact ihns hns
        | false =>
          rw [Xml.Node.remaining_cons_of_not_isAt hat, List.flatMap_cons, findingsOf_append]
          exact List.rel_append (ih c hc hbelow) (ihns hns)
    rw [Xml.Node.without_element, Xml.Node.elements_element, Xml.Node.elements_element]
    have hwhole := List.rel_append hhead (hchildren children (List.Subset.refl _))
    dsimp only at hwhole
    rw [← findingsOf_append, ← findingsOf_append] at hwhole
    exact hwhole

/-- The registry of the tree without an element is the same, but for the elements that have lost it,
and the same is reported. -/
theorem alike_without (h : root.Loose order) :
    Registry.Alike (Xml.Element.Loses order) (collect root).1 (collect (root.without order)).1 ∧
      (collect (root.without order)).2 = (collect root).2 := by
  refine Registry.alike_collect ?_
  unfold findings
  rw [Xml.Element.node_without]
  exact forall₂_findingsOf_without h (List.Subset.refl _)

end Registry

end SvgDisplayList
