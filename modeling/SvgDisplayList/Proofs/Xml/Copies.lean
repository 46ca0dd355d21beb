import Mathlib.Data.List.Forall2
import SvgDisplayList.Proofs.Xml.Tree

/-!
# Copies of trees

A copy of a tree has the same elements with other places in document order (`Node.unnumbered`), and
perhaps without their identifiers (`Node.anonymous`).  A tag is `Tag.plain` if it has neither: this
is all that a copy is sure to have in common with what it is a copy of.

`Node.replace` puts a node in the stead of the element of a place.
-/

namespace SvgDisplayList

/-! ## Lists side by side -/

section Forall₂

variable {α β γ : Type} {r s : α → β → Prop} {l : List α} {l' : List β}

/-- What follows for each member of a list follows for the list. -/
lemma forall₂_imp_of_mem (h : List.Forall₂ r l l') (himp : ∀ a ∈ l, ∀ b, r a b → s a b) :
    List.Forall₂ s l l' := by
  induction h with
  | nil => exact .nil
  | cons hab _ ih =>
    obtain ⟨ha, hl⟩ := List.forall_mem_cons.mp himp
    exact .cons (ha _ hab) (ih hl)

/-- What is the same of members side by side is the same of the lists. -/
lemma map_eq_of_forall₂ {f : α → γ} {g : β → γ} (h : List.Forall₂ r l l')
    (hfg : ∀ a ∈ l, ∀ b, r a b → g b = f a) :
    l'.map g = l.map f := by
  induction h with
  | nil => rfl
  | cons hab _ ih =>
    obtain ⟨ha, hl⟩ := List.forall_mem_cons.mp hfg
    rw [List.map_cons, List.map_cons, ha _ hab, ih hl]

end Forall₂

namespace Xml

/-! ## Tags -/

/-- Whether an attribute is the identifier of its element. -/
def Attribute.isIdentifier (a : Attribute) : Bool := a.space? == none && a.name == "id"

namespace Tag

/-- The tag at no place. -/
def unnumbered (t : Tag) : Tag := { t with order := 0 }

/-- The tag without its identifier. -/
def anonymous (t : Tag) : Tag :=
  { t with attributes := t.attributes.filter fun a => !a.isIdentifier }

/-- The tag at no place and without its identifier. -/
def plain (t : Tag) : Tag := t.anonymous.unnumbered

@[simp] lemma plain_name (t : Tag) : t.plain.name = t.name := rfl

@[simp] lemma plain_space? (t : Tag) : t.plain.space? = t.space? := rfl

/-- The place of a tag does not matter to what is plain. -/
@[simp] lemma plain_unnumbered (t : Tag) : t.unnumbered.plain = t.plain := rfl

/-- The identifier of a tag does not matter to what is plain. -/
@[simp] lemma plain_anonymous (t : Tag) : t.anonymous.plain = t.plain := by
  unfold plain anonymous
  rw [List.filter_filter]
  simp only [Bool.and_self]

/-- What is plain of tags that differ in their places. -/
lemma plain_eq_of_unnumbered_eq {t t' : Tag} (h : t'.unnumbered = t.unnumbered) :
    t'.plain = t.plain := by
  rw [← plain_unnumbered, h, plain_unnumbered]

/-- Tags that differ in their places have the same attributes. -/
lemma attribute?_eq_of_unnumbered_eq {t t' : Tag} (h : t'.unnumbered = t.unnumbered)
    (name : String) :
    t'.attribute? name = t.attribute? name := by
  change t'.unnumbered.attribute? name = t.unnumbered.attribute? name
  rw [h]

/-- The attributes that a class of attributes leaves. -/
lemma attributeIn?_filter {p : Attribute → Bool} {t : Tag} {space : Option String} {name : String}
    (h : ∀ a : Attribute, a.space? = space → a.name = name → p a = true) :
    ({ t with attributes := t.attributes.filter p } : Tag).attributeIn? space name =
      t.attributeIn? space name := by
  unfold attributeIn?
  rw [List.find?_filter]
  congr 2
  funext a
  cases ha : a.space? == space && a.name == name with
  | false => simp
  | true =>
    rw [Bool.and_eq_true, beq_iff_eq, beq_iff_eq] at ha
    simp [h a ha.1 ha.2]

/-- A tag has the attributes of its plain tag, but for its identifier. -/
lemma attributeIn?_plain {space : Option String} {name : String} (t : Tag)
    (h : space ≠ none ∨ name ≠ "id") :
    t.plain.attributeIn? space name = t.attributeIn? space name := by
  refine attributeIn?_filter (t := t) fun a hspace hname => ?_
  subst hspace hname
  rw [Attribute.isIdentifier, Bool.not_eq_true', Bool.and_eq_false_iff, beq_eq_false_iff_ne,
    beq_eq_false_iff_ne]
  exact h

/-- A tag has the attributes of its plain tag, but for its identifier. -/
lemma attribute?_plain {name : String} (t : Tag) (h : name ≠ "id") :
    t.plain.attribute? name = t.attribute? name :=
  t.attributeIn?_plain (Or.inr h)

/-- A plain tag has no identifier. -/
lemma attribute?_anonymous_id (t : Tag) : t.anonymous.attribute? "id" = none := by
  unfold attribute? attributeIn? anonymous
  rw [List.find?_filter, Option.map_eq_none_iff, List.find?_eq_none]
  intro a _
  change ¬ decide ((!a.isIdentifier) = true ∧ a.isIdentifier = true) = true
  cases a.isIdentifier <;> decide

end Tag

/-! ## Nodes -/

namespace Node

/-- The tree with every tag changed. -/
def mapTags (f : Tag → Tag) : Node → Node
  | text s => text s
  | element tag children => element (f tag) (mapTagsOf children)
where
  mapTagsOf : List Node → List Node
    | [] => []
    | n :: ns => n.mapTags f :: mapTagsOf ns

end Node

/-- The element with every tag changed. -/
def Element.mapTags (f : Tag → Tag) (e : Element) : Element :=
  ⟨f e.tag, e.children.map (Node.mapTags f)⟩

namespace Node

/-- The tree with its elements at no place. -/
def unnumbered (n : Node) : Node := n.mapTags Tag.unnumbered

/-- The tree without the identifiers of its elements. -/
def anonymous (n : Node) : Node := n.mapTags Tag.anonymous

/-- The tree with a node in the stead of the element of a place. -/
def replace (order : Nat) (new : Node) : Node → Node
  | text s => text s
  | element tag children => if tag.order = order then new else element tag (replaceOf children)
where
  replaceOf : List Node → List Node
    | [] => []
    | n :: ns => replace order new n :: replaceOf ns

variable {f : Tag → Tag}

@[simp] lemma mapTags_text (s : String) : (text s).mapTags f = text s := rfl

@[simp] lemma mapTags_element (tag : Tag) (children : List Node) :
    (element tag children).mapTags f = element (f tag) (children.map (mapTags f)) := by
  have hchildren : mapTags.mapTagsOf f children = children.map (mapTags f) := by
    induction children with
    | nil => rfl
    | cons n ns ih => rw [mapTags.mapTagsOf, ih, List.map_cons]
  rw [mapTags, hchildren]

@[simp] lemma replace_text (order : Nat) (new : Node) (s : String) :
    replace order new (text s) = text s := rfl

lemma replace_element (order : Nat) (new : Node) (tag : Tag) (children : List Node) :
    replace order new (element tag children) =
      if tag.order = order then new else element tag (children.map (replace order new)) := by
  have hchildren : replace.replaceOf order new children = children.map (replace order new) := by
    induction children with
    | nil => rfl
    | cons n ns ih => rw [replace.replaceOf, ih, List.map_cons]
  rw [replace, hchildren]

/-- A changed tree has the same character data. -/
@[simp] lemma characters_mapTags (n : Node) : (n.mapTags f).characters = n.characters := by
  induction n using Node.induction with
  | text s => rfl
  | element tag children ih =>
    rw [mapTags_element, characters, characters]
    induction children with
    | nil => rfl
    | cons n ns ihns =>
      obtain ⟨hn, hns⟩ := List.forall_mem_cons.mp ih
      rw [List.map_cons, characters.charactersOf, characters.charactersOf, hn, ihns hns]

/-- The elements of a changed tree are the changed elements of the tree. -/
lemma elements_mapTags (n : Node) (ancestors : List Tag) :
    (n.mapTags f).elements (ancestors.map f) =
      (n.elements ancestors).map fun x => (x.1.mapTags f, x.2.map f) := by
  induction n using Node.induction generalizing ancestors with
  | text s => rfl
  | element tag children ih =>
    rw [mapTags_element, elements_element, elements_element, List.map_cons, List.flatMap_map,
      List.map_flatMap]
    exact congrArg (_ :: ·) (List.flatMap_congr fun c hc => ih c hc (tag :: ancestors))

/-- Trees that differ in their places have the same character data. -/
lemma characters_eq_of_unnumbered_eq {n n' : Node} (h : n'.unnumbered = n.unnumbered) :
    n'.characters = n.characters := by
  rw [← characters_mapTags (f := Tag.unnumbered) n', ← characters_mapTags (f := Tag.unnumbered) n]
  exact congrArg characters h

/-- What differs from character data in its places is that character data. -/
lemma eq_text_of_unnumbered_eq {n : Node} {s : String} (h : n.unnumbered = text s) :
    n = text s := by
  cases n with
  | text s' => exact h
  | element tag children =>
    unfold unnumbered at h
    rw [mapTags_element] at h
    cases h

/-- What differs from an element in its places is such an element. -/
lemma exists_of_unnumbered_eq {n : Node} {tag : Tag} {children : List Node}
    (h : n.unnumbered = (element tag children).unnumbered) :
    ∃ tag' children', n = element tag' children' ∧ tag'.unnumbered = tag.unnumbered ∧
      List.Forall₂ (fun c c' => c'.unnumbered = c.unnumbered) children children' := by
  cases n with
  | text s =>
    unfold unnumbered at h
    rw [mapTags_element] at h
    cases h
  | element tag' children' =>
    unfold unnumbered at h
    rw [mapTags_element, mapTags_element, element.injEq] at h
    refine ⟨tag', children', rfl, h.1, ?_⟩
    have hchildren : List.Forall₂ Eq (children.map unnumbered) (children'.map unnumbered) := by
      rw [List.forall₂_eq_eq_eq]
      exact h.2.symm
    rw [List.forall₂_map_left_iff, List.forall₂_map_right_iff] at hchildren
    exact hchildren.imp fun _ _ => Eq.symm

end Node

namespace Element

variable {f : Tag → Tag} (e : Element)

/-- The node of a changed element. -/
lemma node_mapTags : (e.mapTags f).node = e.node.mapTags f :=
  (Node.mapTags_element e.tag e.children).symm

/-- A changed element has the same character data. -/
lemma characters_mapTags : (e.mapTags f).characters = e.characters := by
  unfold characters
  rw [node_mapTags, Node.characters_mapTags]

/-- The child elements of a changed element. -/
lemma childElements_mapTags : (e.mapTags f).childElements = e.childElements.map (mapTags f) := by
  unfold childElements mapTags
  rw [List.filterMap_map, List.map_filterMap]
  refine List.filterMap_congr fun n _ => ?_
  cases n with
  | text s => rfl
  | element tag children =>
    change ((Node.element tag children).mapTags f).element? = _
    rw [Node.mapTags_element]
    rfl

end Element

namespace Node

/-! ## Replacing an element -/

/-- A node has all ancestors that its tree has. -/
lemma mem_ancestors_of_mem_elements {n : Node} {base : List Tag} {x : Element × List Tag} {a : Tag}
    (hx : x ∈ n.elements base) (ha : a ∈ base) : a ∈ x.2 := by
  induction n using Node.induction generalizing base with
  | text s => cases hx
  | element tag children ih =>
    rcases mem_elements_element.mp hx with rfl | ⟨c, hc, hx⟩
    · exact ha
    · exact ih c hc hx (List.mem_cons_of_mem _ ha)

/-- A tree is left as it is if it has no element of the place. -/
lemma replace_eq_self {order : Nat} (new : Node) {n : Node} {base : List Tag}
    (h : ∀ x ∈ n.elements base, x.1.tag.order ≠ order) : replace order new n = n := by
  induction n using Node.induction generalizing base with
  | text s => rfl
  | element tag children ih =>
    have hself := h _ (mem_elements_element.mpr (Or.inl rfl))
    have hchildren : children.map (replace order new) = children := by
      refine (List.map_congr_left fun c hc => ?_).trans (List.map_id children)
      exact ih c hc fun x hx => h x (elements_child_subset hc base hx)
    rw [replace_element, if_neg hself, hchildren]

end Node

end Xml

end SvgDisplayList
