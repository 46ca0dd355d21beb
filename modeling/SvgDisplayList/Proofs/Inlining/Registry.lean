import SvgDisplayList.Proofs.Inlining.Mirror
import SvgDisplayList.Proofs.Scene.Registry

/-!
# The definitions of a document in which a use has been inlined

A use without identifiers defines nothing, and neither do the groups in its stead.  So the
definitions of the two documents are collected side by side: the elements under an identifier mirror
each other, and the gradients are the same (`Inlining.mirrorsRegistry_collect`).
-/

namespace SvgDisplayList

/-! ## Tags of trees -/

namespace Xml.Node

/-- The tags of the elements of a tree, in document order. -/
def tags (n : Node) : List Tag := (n.elements []).map (·.1.tag)

/-- The tags do not depend on what stands above the tree. -/
lemma map_tag_elements (n : Node) (ancestors : List Tag) :
    (n.elements ancestors).map (·.1.tag) = n.tags := by
  unfold tags
  induction n using Node.induction generalizing ancestors with
  | text s => rfl
  | element tag children ih =>
    simp only [elements_element, List.map_cons, List.map_flatMap]
    congr 1
    exact List.flatMap_congr fun c hc => (ih c hc _).trans (ih c hc _).symm

/-- The tags of an element and what is below it. -/
lemma tags_element (tag : Tag) (children : List Node) :
    (element tag children).tags = tag :: children.flatMap tags := by
  unfold tags
  simp only [elements_element, List.map_cons, List.map_flatMap]
  congr 1
  exact List.flatMap_congr fun c _ => c.map_tag_elements _

/-- The tags of a changed tree. -/
lemma tags_mapTags {f : Tag → Tag} (n : Node) : (n.mapTags f).tags = n.tags.map f := by
  induction n using Node.induction with
  | text s => rfl
  | element tag children ih =>
    rw [mapTags_element, tags_element, tags_element, List.map_cons, List.flatMap_map,
      List.map_flatMap]
    congr 1
    exact List.flatMap_congr ih

/-- A tree without identifiers. -/
def IsAnonymous (n : Node) : Prop := ∀ t ∈ n.tags, t.attribute? "id" = none

/-- Trees that differ in their places have identifiers or not. -/
lemma IsAnonymous.of_unnumbered_eq {n n' : Node} (h : n.IsAnonymous)
    (heq : n'.unnumbered = n.unnumbered) :
    n'.IsAnonymous := by
  intro t ht
  have htags : n'.tags.map Tag.unnumbered = n.tags.map Tag.unnumbered := by
    rw [← tags_mapTags, ← tags_mapTags]
    exact congrArg tags heq
  have hmem : t.unnumbered ∈ n.tags.map Tag.unnumbered := htags ▸ List.mem_map_of_mem ht
  obtain ⟨t₀, ht₀, heq⟩ := List.mem_map.mp hmem
  rw [Tag.attribute?_eq_of_unnumbered_eq heq.symm, h t₀ ht₀]

/-- A copy without identifiers has none. -/
lemma isAnonymous_anonymous (n : Node) : n.anonymous.IsAnonymous := by
  intro t ht
  unfold anonymous at ht
  rw [tags_mapTags] at ht
  obtain ⟨t₀, -, rfl⟩ := List.mem_map.mp ht
  exact t₀.attribute?_anonymous_id

end Xml.Node

/-- A tree without identifiers defines nothing. -/
lemma Collection.foldl_add_of_isAnonymous {n : Xml.Node} (h : n.IsAnonymous)
    (ancestors : List Xml.Tag) (c : Collection) :
    (n.elements ancestors).foldl (fun c (e, ancestors) => c.add e ancestors) c = c := by
  have hall : ∀ x ∈ n.elements ancestors, x.1.tag.attribute? "id" = none := by
    intro x hx
    refine h x.1.tag ?_
    rw [← n.map_tag_elements ancestors]
    exact List.mem_map_of_mem hx
  generalize n.elements ancestors = xs at hall
  induction xs with
  | nil => rfl
  | cons x xs ih =>
    obtain ⟨hx, hxs⟩ := List.forall_mem_cons.mp hall
    have hid : identifier? x.1 = none := by
      unfold identifier? Xml.Element.attribute?
      rw [hx]
      rfl
    rw [List.foldl_cons]
    simp only [add, hid]
    exact ih hxs

namespace Inlining

variable {i : Inlining}

/-- The groups in the stead of a use have no identifiers. -/
lemma isAnonymous_node : i.node.IsAnonymous := by
  unfold node
  intro t ht
  rw [Xml.Node.tags_element, List.mem_cons, List.flatMap_singleton, Xml.Node.tags_element,
    List.mem_cons, List.flatMap_singleton] at ht
  rcases ht with rfl | rfl | ht
  · unfold outer Xml.Tag.attribute? Xml.Tag.attributeIn?
    rw [List.find?_filter, Option.map_eq_none_iff, List.find?_eq_none]
    intro a _ ha
    rw [decide_eq_true_eq, Bool.and_eq_true, beq_iff_eq, beq_iff_eq] at ha
    obtain ⟨hcarries, hspace, hname⟩ := ha
    unfold carries at hcarries
    rw [hspace, hname] at hcarries
    exact absurd hcarries (by decide)
  · rfl
  · exact i.target.node.isAnonymous_anonymous t ht

end Inlining

/-! ## Gradients -/

namespace Inlining

variable {i : Inlining}

/-- The stops among children are the elements of that name. -/
lemma stops_cons (tag : Xml.Tag) (children ns : List Xml.Node) :
    ((Xml.Node.element tag children :: ns).filterMap Xml.Node.element?).filter (·.name == "stop") =
      (if tag.name = "stop" then [⟨tag, children⟩] else []) ++
        (ns.filterMap Xml.Node.element?).filter (·.name == "stop") := by
  have hhead : ((⟨tag, children⟩ : Xml.Element).name == "stop") = decide (tag.name = "stop") := rfl
  change (⟨tag, children⟩ :: ns.filterMap Xml.Node.element?).filter (·.name == "stop") = _
  rw [List.filter_cons, hhead]
  by_cases hstop : tag.name = "stop"
  · rw [decide_eq_true hstop, if_pos rfl, if_pos hstop, List.singleton_append]
  · rw [decide_eq_false hstop, if_neg Bool.false_ne_true, if_neg hstop, List.nil_append]

/-- The stops among children that mirror each other. -/
lemma forall₂_stops (huse : ElementKind.ofTag i.use.tag = .use) {children children' : List Xml.Node}
    (h : List.Forall₂ (Mirrors i) children children') :
    List.Forall₂ (fun e e' : Xml.Element => e'.tag.plain = e.tag.plain)
      ((children.filterMap Xml.Node.element?).filter (·.name == "stop"))
      ((children'.filterMap Xml.Node.element?).filter (·.name == "stop")) := by
  induction h with
  | nil => exact .nil
  | cons hn _ ih =>
    cases hn with
    | text s => exact ih
    | @element tag tag' cs cs' htag _ _ _ =>
      have hname : tag'.name = tag.name := congrArg (·.name) htag
      rw [stops_cons, stops_cons, hname]
      split_ifs
      · exact .cons htag ih
      · exact ih
    | use hinlined =>
      obtain ⟨tag', children', rfl, htag, -⟩ := Xml.Node.exists_of_unnumbered_eq hinlined
      have hname : tag'.name ≠ "stop" := by
        have hg : tag'.name = "g" := congrArg (·.name) htag
        rw [hg]
        decide
      have hname' : i.use.tag.name ≠ "stop" := by
        rw [ElementKind.name_eq_of_use huse]
        decide
      unfold Xml.Element.node
      rw [stops_cons, stops_cons, if_neg hname, if_neg hname']
      exact ih

/-- Elements that mirror each other make the same gradient. -/
lemma ofElement_eq (huse : ElementKind.ofTag i.use.tag = .use) {e e' : Xml.Element}
    (htag : e'.tag.plain = e.tag.plain)
    (hchildren : List.Forall₂ (Mirrors i) e.children e'.children) (kind : GradientKind)
    (id : String) :
    Gradient.ofElement kind id e' = Gradient.ofElement kind id e := by
  unfold Gradient.ofElement
  have hcontent : Xml.Tag.SameContent e.tag e'.tag := .of_plain_eq htag
  rw [GradientAttributes.ofTag_congr hcontent, hcontent.reference?_eq]
  have hstops := GradientStop.ramp_eq_of_plain_eq (forall₂_stops huse hchildren) 0
  unfold Xml.Element.childElements
  rw [hstops]

/-! ## Definitions side by side -/

/-- What an identifier stands for in a document in which a use has been inlined, beside what it
stands for in the original document. -/
inductive MirrorsDefinition (i : Inlining) : Definition → Definition → Prop where
  | element {e e' : Xml.Element} (ancestors ancestors' : List Xml.Tag)
      (mirrored : Mirrors i e.node e'.node) :
      MirrorsDefinition i (.element e ancestors) (.element e' ancestors')
  | gradient (g : Gradient) : MirrorsDefinition i (.gradient g) (.gradient g)

/-- Entries under the same name whose definitions mirror each other. -/
def MirrorsEntry (i : Inlining) (x x' : String × Definition) : Prop :=
  x'.1 = x.1 ∧ MirrorsDefinition i x.2 x'.2

/-- A collection of definitions of a document in which a use has been inlined. -/
structure MirrorsCollection (i : Inlining) (c c' : Collection) : Prop where
  entries : List.Forall₂ (MirrorsEntry i) c.registry.entries c'.registry.entries
  gradients : c'.gradients = c.gradients

/-- A registry of a document in which a use has been inlined. -/
structure MirrorsRegistry (i : Inlining) (r r' : Registry) : Prop where
  gradient : ∀ id, r'.gradient? id = r.gradient? id
  none : ∀ id, r.element? id = none → r'.element? id = none
  some : ∀ id e ancestors, r.element? id = some (e, ancestors) →
    ∃ e' ancestors', r'.element? id = some (e', ancestors') ∧ Mirrors i e.node e'.node

/-- Definitions are added side by side. -/
lemma forall₂_put {entries entries' : Keyed Definition}
    (h : List.Forall₂ (MirrorsEntry i) entries entries') (id : String) {d d' : Definition}
    (hd : MirrorsDefinition i d d') :
    List.Forall₂ (MirrorsEntry i) (Keyed.put id d entries) (Keyed.put id d' entries') := by
  induction h with
  | nil => exact .cons ⟨rfl, hd⟩ .nil
  | @cons x x' _ _ hx hrest ih =>
    obtain ⟨k, v⟩ := x
    obtain ⟨k', v'⟩ := x'
    obtain ⟨rfl, hv⟩ := hx
    unfold Keyed.put
    split_ifs
    · exact .cons ⟨rfl, hd⟩ hrest
    · exact .cons ⟨rfl, hv⟩ ih

/-- Under a name there are definitions that mirror each other, or none. -/
lemma get?_mirrors {entries entries' : Keyed Definition}
    (h : List.Forall₂ (MirrorsEntry i) entries entries') (id : String) :
    (Keyed.get? entries id = none ∧ Keyed.get? entries' id = none) ∨
      ∃ d d', Keyed.get? entries id = some d ∧ Keyed.get? entries' id = some d' ∧
        MirrorsDefinition i d d' := by
  induction h with
  | nil => exact Or.inl ⟨rfl, rfl⟩
  | @cons x x' _ _ hx _ ih =>
    obtain ⟨hname, hd⟩ := hx
    unfold Keyed.get? at ih ⊢
    rw [List.find?_cons, List.find?_cons, hname]
    cases x.1 == id with
    | true => exact Or.inr ⟨x.2, x'.2, rfl, rfl, hd⟩
    | false => exact ih

/-- Registries mirror each other if their entries do. -/
lemma MirrorsRegistry.of_entries {r r' : Registry}
    (h : List.Forall₂ (MirrorsEntry i) r.entries r'.entries) :
    MirrorsRegistry i r r' := by
  refine ⟨fun id => ?_, fun id hnone => ?_, fun id e ancestors hsome => ?_⟩
  · unfold Registry.gradient?
    rcases get?_mirrors h id with ⟨hget, hget'⟩ | ⟨d, d', hget, hget', hd⟩
    · rw [hget, hget']
    · rw [hget, hget']
      cases hd <;> rfl
  · unfold Registry.element? at hnone ⊢
    rcases get?_mirrors h id with ⟨hget, hget'⟩ | ⟨d, d', hget, hget', hd⟩
    · rw [hget']
    · rw [hget] at hnone
      rw [hget']
      cases hd with
      | element => cases hnone
      | gradient => rfl
  · unfold Registry.element? at hsome ⊢
    rcases get?_mirrors h id with ⟨hget, hget'⟩ | ⟨d, d', hget, hget', hd⟩
    · rw [hget] at hsome
      cases hsome
    · rw [hget] at hsome
      rw [hget']
      cases hd with
      | element _ ancestors' hmirrored =>
        cases hsome
        exact ⟨_, ancestors', rfl, hmirrored⟩
      | gradient => cases hsome

namespace MirrorsCollection

variable {c c' : Collection}

/-- A definition is added to both collections. -/
lemma define (h : MirrorsCollection i c c') (id : String) {d d' : Definition}
    (hd : MirrorsDefinition i d d') :
    MirrorsCollection i (c.define id d) (c'.define id d') := by
  have hdefine : ∀ (c : Collection) d,
    (c.define id d).registry.entries = Keyed.put id d c.registry.entries ∧
      (c.define id d).gradients = c.gradients := by
    intro c d
    unfold Collection.define
    dsimp only
    split <;> exact ⟨rfl, rfl⟩
  refine ⟨?_, ?_⟩
  · rw [(hdefine c d).1, (hdefine c' d').1]
    exact forall₂_put h.entries id hd
  · rw [(hdefine c d).2, (hdefine c' d').2, h.gradients]

/-- An element and its mirror image are collected. -/
lemma add (h : MirrorsCollection i c c') (huse : ElementKind.ofTag i.use.tag = .use)
    (e e' : Xml.Element) (htag : e'.tag.unnumbered = e.tag.unnumbered)
    (hchildren : List.Forall₂ (Mirrors i) e.children e'.children) (hnode : Mirrors i e.node e'.node)
    (ancestors ancestors' : List Xml.Tag) :
    MirrorsCollection i (c.add e ancestors) (c'.add e' ancestors') := by
  have hname : e'.name = e.name := congrArg (·.name) htag
  have hid : Collection.identifier? e' = Collection.identifier? e := by
    unfold Collection.identifier? Xml.Element.attribute?
    rw [Xml.Tag.attribute?_eq_of_unnumbered_eq htag]
  unfold Collection.add
  rw [hid, hname]
  cases Collection.identifier? e with
  | none => exact h
  | some id =>
    dsimp only
    cases GradientKind.ofElementName? e.name with
    | none => exact h.define id (.element _ _ hnode)
    | some kind =>
      dsimp only
      rw [ofElement_eq huse (Xml.Tag.plain_eq_of_unnumbered_eq htag) hchildren]
      cases Gradient.ofElement kind id e with
      | error err => exact ⟨h.entries, h.gradients⟩
      | ok g =>
        have hadded : MirrorsCollection i (c.addGradient g) (c'.addGradient g) := by
          refine ⟨h.entries, ?_⟩
          unfold Collection.addGradient
          rw [h.gradients]
        exact hadded.define id (.gradient g)

/-- Finished registries. -/
lemma finish (h : MirrorsCollection i c c') : MirrorsRegistry i c.finish c'.finish := by
  refine .of_entries ?_
  unfold Collection.finish
  rw [List.forall₂_map_left_iff, List.forall₂_map_right_iff]
  refine h.entries.imp ?_
  rintro ⟨k, d⟩ ⟨k', d'⟩ ⟨rfl, hd⟩
  refine ⟨rfl, ?_⟩
  rw [h.gradients]
  cases hd with
  | element _ _ hmirrored => exact .element _ _ hmirrored
  | gradient g => exact .gradient _

end MirrorsCollection

/-- The trees of a list are collected one after the other. -/
lemma mirrorsCollection_flatMap {ns ns' : List Xml.Node} {ancestors ancestors' : List Xml.Tag}
    (h : List.Forall₂ (fun n n' => ∀ c c', MirrorsCollection i c c' →
      MirrorsCollection i
        ((n.elements ancestors).foldl (fun c (e, ancestors) => c.add e ancestors) c)
        ((n'.elements ancestors').foldl (fun c (e, ancestors) => c.add e ancestors) c')) ns ns')
    {c c' : Collection} (hc : MirrorsCollection i c c') :
    MirrorsCollection i
      ((ns.flatMap (·.elements ancestors)).foldl (fun c (e, ancestors) => c.add e ancestors) c)
      ((ns'.flatMap (·.elements ancestors')).foldl
        (fun c (e, ancestors) => c.add e ancestors) c') := by
  induction h generalizing c c' with
  | nil => exact hc
  | cons hn _ ih =>
    rw [List.flatMap_cons, List.flatMap_cons, List.foldl_append, List.foldl_append]
    exact ih (hn _ _ hc)

/-- A tree in which the use is replaced defines what mirrors the definitions of the tree. -/
lemma mirrorsCollection_foldl (huse : ElementKind.ofTag i.use.tag = .use)
    (hanonymous : i.use.node.IsAnonymous) {n n' : Xml.Node} {ancestors ancestors' : List Xml.Tag}
    (hat : ∀ x ∈ n.elements ancestors, Mirrors.AtUse i x)
    (hn : n'.unnumbered = (Xml.Node.replace i.use.tag.order i.node n).unnumbered)
    {c c' : Collection} (hc : MirrorsCollection i c c') :
    MirrorsCollection i ((n.elements ancestors).foldl (fun c (e, ancestors) => c.add e ancestors) c)
      ((n'.elements ancestors').foldl (fun c (e, ancestors) => c.add e ancestors) c') := by
  induction n using Xml.Node.induction generalizing n' ancestors ancestors' c c' with
  | text s =>
    rw [Xml.Node.eq_text_of_unnumbered_eq hn]
    exact hc
  | element tag children ih =>
    have hmirrors := Mirrors.of_replace hat hn
    have hself := hat _ (Xml.Node.mem_elements_element.mpr (Or.inl rfl))
    have hbelow : ∀ c ∈ children, ∀ x ∈ c.elements (tag :: ancestors), Mirrors.AtUse i x :=
      fun c hc x hx => hat x (Xml.Node.elements_child_subset hc ancestors hx)
    rw [Xml.Node.replace_element] at hn
    split_ifs at hn with horder
    · have hnode : Xml.Node.element tag children = i.use.node :=
        congrArg Xml.Element.node (hself horder).1
      rw [hnode, Collection.foldl_add_of_isAnonymous hanonymous,
        Collection.foldl_add_of_isAnonymous (isAnonymous_node.of_unnumbered_eq hn)]
      exact hc
    · obtain ⟨tag', children', rfl, htag, hchildren⟩ := Xml.Node.exists_of_unnumbered_eq hn
      rw [List.forall₂_map_left_iff] at hchildren
      have hmirrored : List.Forall₂ (Mirrors i) children children' :=
        forall₂_imp_of_mem hchildren fun d hd d' hd' => Mirrors.of_replace (hbelow d hd) hd'
      have hadded :=
        hc.add huse ⟨tag, children⟩ ⟨tag', children'⟩ htag hmirrored hmirrors ancestors ancestors'
      rw [Xml.Node.elements_element, Xml.Node.elements_element, List.foldl_cons, List.foldl_cons]
      refine mirrorsCollection_flatMap ?_ hadded
      exact forall₂_imp_of_mem hchildren fun d hd d' hd' c c' hc => ih d hd (hbelow d hd) hd' hc

/-- The registries of a document and of the document in which a use has been inlined. -/
theorem mirrorsRegistry_collect (huse : ElementKind.ofTag i.use.tag = .use)
    (hanonymous : i.use.node.IsAnonymous) {root root' : Xml.Element}
    (hat : ∀ x ∈ root.node.elements [], Mirrors.AtUse i x)
    (hroot : root'.node.unnumbered =
      (Xml.Node.replace i.use.tag.order i.node root.node).unnumbered) :
    MirrorsRegistry i (Registry.collect root).1 (Registry.collect root').1 :=
  (mirrorsCollection_foldl huse hanonymous hat hroot ⟨.nil, rfl⟩).finish

end Inlining

end SvgDisplayList
