import Mathlib.Data.List.Nodup
import Mathlib.Tactic.Lemma
import SvgDisplayList.Xml.Document

/-!
# Elements and their ancestors

`Node.elements` lists every element of a tree together with its ancestors.  This file says what is
in that list (`Node.mem_elements_element`), that the elements below an element of the list are in
the list (`Node.mem_elements_of_mem`), and that the ancestors of an element of the list are in it as
well (`Node.exists_mem_of_ancestor`).

A tree is `Numbered` if no two of its elements have the same place in document order.  In a numbered
tree the place of an element decides the element and its ancestors, and no element is its own
ancestor.
-/

namespace SvgDisplayList

namespace Xml

/-- An element is what its node holds. -/
lemma Element.node_injective : Function.Injective Element.node := by
  intro e e' h
  obtain ⟨htag, hchildren⟩ := Node.element.inj h
  cases e
  cases e'
  exact congrArg₂ Element.mk htag hchildren

namespace Node

/-- Induction over a tree: an element may use the statement for all of its children. -/
@[elab_as_elim]
theorem induction {p : Node → Prop} (text : ∀ s, p (.text s))
    (element : ∀ tag children, (∀ n ∈ children, p n) → p (.element tag children)) (n : Node) :
    p n :=
  @Node.rec p (fun ns => ∀ n ∈ ns, p n) element text (by simp)
    (fun _ _ hn hns _ hm => (List.mem_cons.mp hm).elim (· ▸ hn) (hns _)) n

/-! ## Membership -/

/-- A run of character data holds no element. -/
@[simp] lemma elements_text (ancestors : List Tag) (s : String) :
    (text s).elements ancestors = [] := rfl

/-- The elements of a list of nodes are those of its members, in order. -/
lemma elementsOf_eq_flatMap (ancestors : List Tag) (ns : List Node) :
    elements.elementsOf ancestors ns = ns.flatMap (·.elements ancestors) := by
  induction ns with
  | nil => rfl
  | cons n ns ih => rw [elements.elementsOf, ih, List.flatMap_cons]

/-- The elements of an element are itself and those of its children. -/
lemma elements_element (ancestors : List Tag) (tag : Tag) (children : List Node) :
    (element tag children).elements ancestors =
      (⟨tag, children⟩, ancestors) :: children.flatMap (·.elements (tag :: ancestors)) := by
  rw [elements, elementsOf_eq_flatMap]

/-- An element is listed below an element if it is that element or is listed below one of its
children. -/
lemma mem_elements_element {ancestors : List Tag} {tag : Tag} {children : List Node}
    {x : Element × List Tag} :
    x ∈ (element tag children).elements ancestors ↔
      x = (⟨tag, children⟩, ancestors) ∨ ∃ c ∈ children, x ∈ c.elements (tag :: ancestors) := by
  rw [elements_element, List.mem_cons, List.mem_flatMap]

/-- An element is listed below itself. -/
lemma self_mem_elements (e : Element) (ancestors : List Tag) :
    (e, ancestors) ∈ e.node.elements ancestors :=
  mem_elements_element.mpr (Or.inl rfl)

/-- What is listed below a child is listed below the element. -/
lemma elements_child_subset {tag : Tag} {children : List Node} {c : Node} (hc : c ∈ children)
    (ancestors : List Tag) :
    c.elements (tag :: ancestors) ⊆ (element tag children).elements ancestors :=
  fun _ hx => mem_elements_element.mpr (Or.inr ⟨c, hc, hx⟩)

/-- What is listed below an element of a list is in the list. -/
theorem mem_elements_of_mem {n : Node} {base ancestors : List Tag} {e : Element}
    {x : Element × List Tag} (he : (e, ancestors) ∈ n.elements base)
    (hx : x ∈ e.node.elements ancestors) :
    x ∈ n.elements base := by
  induction n using Node.induction generalizing base with
  | text s => simp at he
  | element tag children ih =>
    rcases mem_elements_element.mp he with h | ⟨c, hc, h⟩
    · obtain ⟨rfl, rfl⟩ := Prod.mk.inj h
      exact hx
    · exact elements_child_subset hc base (ih c hc h)

/-- Each ancestor of a listed element is listed with its own ancestors, unless it stands above the
tree. -/
lemma exists_mem_or_above {n : Node} {base above : List Tag} {a : Tag} {inner : List Tag}
    {e : Element} (he : (e, inner ++ a :: above) ∈ n.elements base) :
    (∃ children, (⟨a, children⟩, above) ∈ n.elements base) ∨ ∃ l, base = l ++ a :: above := by
  induction n using Node.induction generalizing base with
  | text s => simp at he
  | element tag children ih =>
    rcases mem_elements_element.mp he with h | ⟨c, hc, h⟩
    · exact Or.inr ⟨inner, (Prod.mk.inj h).2.symm⟩
    · rcases ih c hc h with ⟨cs, hcs⟩ | ⟨l, hl⟩
      · exact Or.inl ⟨cs, elements_child_subset hc base hcs⟩
      · cases l with
        | nil =>
          obtain ⟨rfl, rfl⟩ := List.cons.inj hl
          exact Or.inl ⟨children, mem_elements_element.mpr (Or.inl rfl)⟩
        | cons b l => exact Or.inr ⟨l, (List.cons.inj hl).2⟩

/-- Each ancestor of a listed element is listed with its own ancestors. -/
theorem exists_mem_of_ancestor {n : Node} {inner above : List Tag} {a : Tag} {e : Element}
    (he : (e, inner ++ a :: above) ∈ n.elements []) :
    ∃ children, (⟨a, children⟩, above) ∈ n.elements [] :=
  (exists_mem_or_above he).resolve_right (by simp)

end Node

/-! ## Numbered trees -/

/-- No two elements of a tree have the same place in document order. -/
def Element.Numbered (root : Element) : Prop :=
  ((root.node.elements []).map fun x => x.1.tag.order).Nodup

namespace Element

variable {root : Element}

/-- In a numbered tree the place of an element decides the element and its ancestors. -/
theorem Numbered.eq_of_order_eq (h : root.Numbered) {x y : Element × List Tag}
    (hx : x ∈ root.node.elements []) (hy : y ∈ root.node.elements [])
    (hxy : x.1.tag.order = y.1.tag.order) : x = y :=
  List.inj_on_of_nodup_map h hx hy hxy

/-- In a numbered tree no ancestor of an element has the place of the element. -/
lemma Numbered.order_ne_of_mem_ancestors (h : root.Numbered) {e : Element} {ancestors : List Tag}
    {a : Tag} (he : (e, ancestors) ∈ root.node.elements []) (ha : a ∈ ancestors) :
    a.order ≠ e.tag.order := by
  intro heq
  obtain ⟨inner, above, rfl⟩ := List.append_of_mem ha
  obtain ⟨children, hmem⟩ := Node.exists_mem_of_ancestor he
  have hsame := h.eq_of_order_eq hmem he heq
  -- the ancestors of the ancestor are fewer
  have hlen := congrArg (fun x : Element × List Tag => x.2.length) hsame
  simp only [List.length_append, List.length_cons] at hlen
  omega

end Element

end Xml

end SvgDisplayList
