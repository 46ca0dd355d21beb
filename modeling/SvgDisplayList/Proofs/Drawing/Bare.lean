import SvgDisplayList.Proofs.Drawing.Resemblance
import SvgDisplayList.Proofs.Inlining.Document
import SvgDisplayList.Proofs.Scene.Correspondence

/-!
# Bare trees

The bare tree of a document is what is left of it without the places of its elements and without
the character data that stands outside of texts (`Xml.Node.bare`).  Documents with the same bare
tree differ in nothing that is drawn: in numbered trees the places that correspond to each other
pair off (`Xml.Element.exists_matches`), so the documents draw the same, report the same and count
the same definitions (`Settings.same_of_bare_eq`).
-/

namespace SvgDisplayList

namespace Xml

namespace Node

/-- The tree at no places, and without the character data outside of texts. -/
def bare : Node → Node
  | text s => text s
  | element tag children =>
    if ElementKind.ofTag tag = .text then (element tag children).unnumbered
    else element tag.unnumbered (bareOf children)
where
  bareOf : List Node → List Node
    | [] => []
    | text _ :: ns => bareOf ns
    | element tag children :: ns => (element tag children).bare :: bareOf ns

/-- The bare tree of an element that is no text has the bare trees of its child elements. -/
lemma bare_node {e : Element} (h : ElementKind.ofTag e.tag ≠ .text) :
    e.node.bare = element e.tag.unnumbered (e.childElements.map fun c => c.node.bare) := by
  have hchildren : ∀ ns, bare.bareOf ns =
      (ns.filterMap element?).map fun c : Element => c.node.bare := by
    intro ns
    induction ns with
    | nil => rfl
    | cons n ns ih =>
      cases n with
      | text s => rw [bare.bareOf, ih]; rfl
      | element tag children => rw [bare.bareOf, ih]; rfl
  unfold Element.node
  rw [bare, if_neg h, hchildren]
  rfl

/-- The bare tree of a text is the text at no place. -/
lemma bare_node_of_text {e : Element} (h : ElementKind.ofTag e.tag = .text) :
    e.node.bare = e.node.unnumbered := by
  unfold Element.node
  rw [bare, if_pos h]

/-- Bare trees have the tag of the tree. -/
lemma exists_bare_node (e : Element) :
    ∃ children, e.node.bare = element e.tag.unnumbered children := by
  by_cases h : ElementKind.ofTag e.tag = .text
  · rw [bare_node_of_text h]
    unfold unnumbered Element.node
    rw [mapTags_element]
    exact ⟨_, rfl⟩
  · exact ⟨_, bare_node h⟩

/-- Elements with the same bare tree differ in the places of their tags. -/
lemma tag_eq_of_bare_eq {e e' : Element} (h : e'.node.bare = e.node.bare) :
    e'.tag.unnumbered = e.tag.unnumbered := by
  obtain ⟨children, hbare⟩ := exists_bare_node e
  obtain ⟨children', hbare'⟩ := exists_bare_node e'
  rw [hbare, hbare'] at h
  exact (element.inj h).1

/-- Trees that differ in their places have child elements that do. -/
lemma forall₂_childElements_of_unnumbered_eq {e e' : Element}
    (h : e'.node.unnumbered = e.node.unnumbered) :
    List.Forall₂ (fun c c' : Element => c'.node.unnumbered = c.node.unnumbered)
      e.childElements e'.childElements := by
  obtain ⟨tag', children', heq, -, hchildren⟩ := exists_of_unnumbered_eq h
  obtain rfl : e' = ⟨tag', children'⟩ := Element.node_injective heq
  refine List.rel_filterMap (fun {c c'} hc => ?_) hchildren
  cases c with
  | text s =>
    rw [eq_text_of_unnumbered_eq hc]
    exact .none
  | element tag children =>
    obtain ⟨tag', children', rfl, -, -⟩ := exists_of_unnumbered_eq hc
    exact .some hc

/-- Trees that differ in their places have the same bare tree. -/
lemma bare_eq_of_unnumbered_eq {e e' : Element} (h : e'.node.unnumbered = e.node.unnumbered) :
    e'.node.bare = e.node.bare := by
  induction e using Element.induction generalizing e' with
  | element e ih =>
    obtain ⟨tag', children', heq, htag, -⟩ := exists_of_unnumbered_eq h
    obtain rfl : e' = ⟨tag', children'⟩ := Element.node_injective heq
    have hkind : ElementKind.ofTag tag' = ElementKind.ofTag e.tag :=
      ElementKind.ofTag_eq_of_plain_eq (Tag.plain_eq_of_unnumbered_eq htag)
    by_cases htext : ElementKind.ofTag e.tag = .text
    · rw [bare_node_of_text htext, bare_node_of_text (hkind.trans htext), h]
    · have hchildren := map_eq_of_forall₂ (forall₂_childElements_of_unnumbered_eq h)
        fun c hc c' hcc' => ih c hc hcc'
      rw [bare_node htext, bare_node (fun h => htext (hkind.symm.trans h)), htag, hchildren]

/-- Elements with the same bare tree have child elements with the same bare trees. -/
lemma forall₂_childElements_of_bare_eq {e e' : Element} (h : e'.node.bare = e.node.bare) :
    List.Forall₂ (fun c c' : Element => c'.node.bare = c.node.bare)
      e.childElements e'.childElements := by
  have htag := tag_eq_of_bare_eq h
  have hkind : ElementKind.ofTag e'.tag = ElementKind.ofTag e.tag :=
    ElementKind.ofTag_eq_of_plain_eq (Tag.plain_eq_of_unnumbered_eq htag)
  by_cases htext : ElementKind.ofTag e.tag = .text
  · rw [bare_node_of_text htext, bare_node_of_text (hkind.trans htext)] at h
    exact (forall₂_childElements_of_unnumbered_eq h).imp fun _ _ => bare_eq_of_unnumbered_eq
  · rw [bare_node htext, bare_node (fun h => htext (hkind.symm.trans h))] at h
    have hchildren := (element.inj h).2
    rw [← List.forall₂_eq_eq_eq] at hchildren
    rw [List.forall₂_map_left_iff, List.forall₂_map_right_iff] at hchildren
    exact hchildren.flip

/-- The elements of an element are itself and those of its child elements. -/
lemma elements_node (e : Element) (above : List Tag) :
    e.node.elements above =
      (e, above) :: e.childElements.flatMap fun c => c.node.elements (e.tag :: above) := by
  have hchildren : ∀ ns : List Node, ns.flatMap (·.elements (e.tag :: above)) =
      (ns.filterMap element?).flatMap fun c => c.node.elements (e.tag :: above) := by
    intro ns
    induction ns with
    | nil => rfl
    | cons n ns ih =>
      cases n with
      | text s => rw [List.flatMap_cons, elements_text, ih]; rfl
      | element tag children => rw [List.flatMap_cons, ih]; rfl
  unfold Element.node
  rw [elements_element, hchildren]
  rfl

/-- The places of a tree, in document order. -/
def places (n : Node) : List Nat := n.tags.map (·.order)

/-- The places of an element and what is below it. -/
lemma places_node (e : Element) :
    e.node.places = e.tag.order :: e.childElements.flatMap fun c => c.node.places := by
  unfold places tags
  rw [elements_node, List.map_cons, List.map_cons, List.map_flatMap, List.map_flatMap]
  congr 1
  refine List.flatMap_congr fun c _ => ?_
  rw [c.node.map_tag_elements]
  rfl

end Node

/-! ## Places that correspond to each other -/

namespace Element

/-- Elements with the same tag and the same child elements but for their places, of which `P`
relates those of the one to those of the other, and with the same characters if they are texts.  -/
inductive Matches (P : Nat → Nat → Prop) : Element → Element → Prop where
  | intro {e e' : Element} (tag : e'.tag.unnumbered = e.tag.unnumbered)
      (place : P e.tag.order e'.tag.order)
      (children : List.Forall₂ (Matches P) e.childElements e'.childElements)
      (characters : ElementKind.ofTag e.tag = .text → e'.characters = e.characters) :
      Matches P e e'

/-- An element and its ancestors match another element and its ancestors. -/
def MatchesBelow (P : Nat → Nat → Prop) (x x' : Element × List Tag) : Prop :=
  Matches P x.1 x'.1 ∧ SamePlaces P x.2 x'.2

variable {P : Nat → Nat → Prop} {e e' : Element}

namespace Matches

lemma tag (h : Matches P e e') : e'.tag.unnumbered = e.tag.unnumbered := by
  cases h
  assumption

lemma place (h : Matches P e e') : P e.tag.order e'.tag.order := by
  cases h
  assumption

lemma children (h : Matches P e e') :
    List.Forall₂ (Matches P) e.childElements e'.childElements := by
  cases h
  assumption

/-- Elements that match each other resemble each other. -/
lemma resembles (h : Matches P e e') : Resembles P e e' := by
  induction e using induction generalizing e' with
  | element e ih =>
    obtain ⟨order, horder⟩ := Tag.exists_order_eq h.tag
    have hkind : ElementKind.ofTag e'.tag = ElementKind.ofTag e.tag := by
      rw [horder]
      rfl
    have hchildren := forall₂_imp_of_mem h.children fun c hc c' hcc' =>
      And.intro hcc' (ih c hc hcc')
    refine .intro h.tag h.place ?_ ?_
    · unfold drawnChildren
      rw [hkind]
      split_ifs
      · exact hchildren.imp fun _ _ hc => hc.2
      · generalize e.childElements = es at hchildren ⊢
        generalize e'.childElements = es' at hchildren ⊢
        induction hchildren with
        | nil => exact .nil
        | @cons c c' _ _ hc _ ih =>
          have hsilent : c'.isSilent = c.isSilent := by
            obtain ⟨order, horder⟩ := Tag.exists_order_eq hc.1.tag
            unfold isSilent
            rw [horder]
            rfl
          rw [List.filter_cons, List.filter_cons, hsilent]
          split_ifs
          · exact .cons hc.2 ih
          · exact ih
    · cases h
      assumption

end Matches

/-- Lists of trees with as many places each: places that correspond in one pair of trees correspond
in the lists. -/
lemma mem_zip_flatMap {l l' : List Element}
    (hlength : List.Forall₂
      (fun c c' : Element => c'.node.places.length = c.node.places.length) l l')
    {x : Nat × Nat} {c c' : Element} (hc : (c, c') ∈ l.zip l')
    (hx : x ∈ c.node.places.zip c'.node.places) :
    x ∈ (l.flatMap fun c => c.node.places).zip (l'.flatMap fun c => c.node.places) := by
  induction hlength with
  | nil => cases hc
  | @cons d d' _ _ hd _ ih =>
    rw [List.flatMap_cons, List.flatMap_cons, List.zip_append hd.symm, List.mem_append]
    rw [List.zip_cons_cons, List.mem_cons] at hc
    rcases hc with heq | hc
    · cases heq
      exact Or.inl hx
    · exact Or.inr (ih hc)

/-- Elements with the same bare tree have as many places. -/
lemma length_places_of_bare_eq (h : e'.node.bare = e.node.bare) :
    e'.node.places.length = e.node.places.length := by
  induction e using Element.induction generalizing e' with
  | element e ih =>
    have hchildren := forall₂_imp_of_mem (Node.forall₂_childElements_of_bare_eq h)
      fun c hc c' hcc' => ih c hc hcc'
    have hlengths := map_eq_of_forall₂ (g := fun c : Element => c.node.places.length) hchildren
      fun _ _ _ => id
    rw [Node.places_node, Node.places_node, List.length_cons, List.length_cons, List.length_flatMap,
      List.length_flatMap, hlengths]

/-- Elements with the same bare tree match each other in any way in which the places of the one
correspond to those of the other. -/
lemma matches_of_bare_eq (h : e'.node.bare = e.node.bare)
    (hP : ∀ x ∈ e.node.places.zip e'.node.places, P x.1 x.2) : Matches P e e' := by
  induction e using Element.induction generalizing e' with
  | element e ih =>
    have hbare := Node.forall₂_childElements_of_bare_eq h
    have hlengths := hbare.imp fun _ _ => length_places_of_bare_eq
    rw [Node.places_node, Node.places_node, List.zip_cons_cons] at hP
    obtain ⟨hself, hbelow⟩ := List.forall_mem_cons.mp hP
    refine .intro (Node.tag_eq_of_bare_eq h) hself ?_ fun htext => ?_
    · rw [List.forall₂_iff_zip] at hbare ⊢
      refine ⟨hbare.1, fun {c c'} hc => ?_⟩
      refine ih c (List.of_mem_zip hc).1 (hbare.2 hc) fun x hx => ?_
      exact hbelow x (mem_zip_flatMap hlengths hc hx)
    · have hkind : ElementKind.ofTag e'.tag = ElementKind.ofTag e.tag :=
        ElementKind.ofTag_eq_of_plain_eq (Tag.plain_eq_of_unnumbered_eq (Node.tag_eq_of_bare_eq h))
      rw [Node.bare_node_of_text htext, Node.bare_node_of_text (hkind.trans htext)] at h
      exact Node.characters_eq_of_unnumbered_eq h

/-- Members of duplicate-free lists are paired off with each other. -/
lemma biUnique_zip {l l' : List Nat} (hl : l.Nodup) (hl' : l'.Nodup) :
    Relator.BiUnique fun a b => (a, b) ∈ l.zip l' := by
  have hindex : ∀ {a b : Nat}, (a, b) ∈ l.zip l' →
      ∃ i : Nat, l[i]? = some a ∧ l'[i]? = some b := by
    intro a b h
    obtain ⟨i, hi⟩ := List.mem_iff_getElem?.mp h
    exact ⟨i, List.getElem?_zip_eq_some.mp hi⟩
  constructor
  · intro a b c hac hbc
    obtain ⟨i, hai, hci⟩ := hindex hac
    obtain ⟨j, hbj, hcj⟩ := hindex hbc
    have hij : i = j :=
      (List.getElem?_inj (List.getElem?_eq_some_iff.mp hci).1 hl').mp (hci.trans hcj.symm)
    exact Option.some.inj (hai.symm.trans (hij ▸ hbj))
  · intro a b c hab hac
    obtain ⟨i, hai, hbi⟩ := hindex hab
    obtain ⟨j, haj, hcj⟩ := hindex hac
    have hij : i = j :=
      (List.getElem?_inj (List.getElem?_eq_some_iff.mp hai).1 hl).mp (hai.trans haj.symm)
    exact Option.some.inj (hbi.symm.trans (hij ▸ hcj))

/-- A tree is numbered if no place comes twice. -/
lemma numbered_iff : e.Numbered ↔ e.node.places.Nodup := by
  unfold Numbered Node.places Node.tags
  rw [List.map_map]
  rfl

/-- Numbered trees with the same bare tree match each other, their places being paired off. -/
theorem exists_matches (hnumbered : e.Numbered) (hnumbered' : e'.Numbered)
    (h : e'.node.bare = e.node.bare) :
    ∃ P, Relator.BiUnique P ∧ Matches P e e' := by
  rw [numbered_iff] at hnumbered hnumbered'
  exact ⟨_, biUnique_zip hnumbered hnumbered', matches_of_bare_eq h fun _ hx => hx⟩

/-! ## Elements of trees that match each other -/

/-- The elements of elements that match each other do so as well. -/
lemma Matches.forall₂_elements (h : Matches P e e') {above above' : List Tag}
    (habove : SamePlaces P above above') :
    List.Forall₂ (MatchesBelow P) (e.node.elements above) (e'.node.elements above') := by
  induction e using Element.induction generalizing e' above above' with
  | element e ih =>
    have hinner : SamePlaces P (e.tag :: above) (e'.tag :: above') := .cons h.place habove
    rw [Node.elements_node, Node.elements_node]
    refine .cons ⟨h, habove⟩ ?_
    have hchildren := forall₂_imp_of_mem h.children fun c hc c' hcc' => ih c hc hcc' hinner
    generalize e.childElements = es at hchildren ⊢
    generalize e'.childElements = es' at hchildren ⊢
    induction hchildren with
    | nil => exact .nil
    | cons hc _ ihs => exact List.rel_append hc ihs

/-- Gradients that match each other are read alike. -/
lemma Matches.ofElement_eq (h : Matches P e e') (kind : GradientKind) (id : String) :
    Gradient.ofElement kind id e' = Gradient.ofElement kind id e := by
  have hstops : List.Forall₂ (fun c c' : Element => c'.tag.plain = c.tag.plain)
      (e.childElements.filter (·.name == "stop")) (e'.childElements.filter (·.name == "stop")) := by
    have hchildren := h.children
    generalize e.childElements = es at hchildren ⊢
    generalize e'.childElements = es' at hchildren ⊢
    induction hchildren with
    | nil => exact .nil
    | @cons c c' _ _ hc _ ih =>
      have hname : c'.name = c.name := congrArg (·.name) hc.tag
      rw [List.filter_cons, List.filter_cons, hname]
      split_ifs
      · exact .cons (Tag.plain_eq_of_unnumbered_eq hc.tag) ih
      · exact ih
  obtain ⟨order, horder⟩ := Tag.exists_order_eq h.tag
  unfold Gradient.ofElement
  rw [GradientStop.ramp_eq_of_plain_eq hstops, horder]
  rfl

end Element

end Xml

/-! ## Documents -/

open Xml.Element (Matches MatchesBelow ResemblesBelow)

variable {P : Nat → Nat → Prop} {root root' : Xml.Element}

/-- Documents that match each other have the same definitions up to elements that match each other,
and the same is reported. -/
lemma Registry.alike_of_matches (h : Matches P root root') :
    Registry.Alike (MatchesBelow P) (collect root).1 (collect root').1 ∧
      (collect root').2 = (collect root).2 := by
  refine Registry.alike_collect (List.rel_filterMap (fun {x x'} hx => ?_) (h.forall₂_elements .nil))
  exact Collection.rel_finding? hx hx.1.tag fun kind id _ => hx.1.ofElement_eq kind id

namespace Settings

variable (settings : Settings)

/-- Documents whose root elements differ in their places have the same frame. -/
lemma ofRoot_eq (h : root'.tag.unnumbered = root.tag.unnumbered) :
    Frame.ofRoot settings root'.tag = Frame.ofRoot settings root.tag := by
  obtain ⟨order, horder⟩ := Xml.Tag.exists_order_eq h
  rw [horder]
  rfl

/-- Their children have the same place. -/
lemma rootPlace_eq (h : root'.tag.unnumbered = root.tag.unnumbered) :
    settings.rootPlace root' = settings.rootPlace root := by
  unfold rootPlace stage
  rw [settings.ofRoot_eq h]
  obtain ⟨order, horder⟩ := Xml.Tag.exists_order_eq h
  rw [horder]
  rfl

/-- Documents that match each other draw the same. -/
lemma drawing_eq_of_matches (hP : Relator.BiUnique P) (h : Matches P root root')
    (hsvg : root.name = "svg") :
    settings.drawing root' = settings.drawing root := by
  have hregistry := (Registry.alike_of_matches h).1
  have hstage : (settings.stage root).Alike P (settings.stage root') := by
    unfold stage
    rw [settings.ofRoot_eq h.tag]
    refine ⟨hregistry.gradient?_eq, ?_, rfl, rfl, rfl, rfl⟩
    exact hregistry.rel_element? fun x x' hx => ⟨hx.1.resembles, hx.2⟩
  unfold drawing
  rw [settings.rootPlace_eq h.tag]
  exact Stage.nodes_resemble hP hstage h.resembles (ElementKind.ofTag_ne_switch_of_svg hsvg)
    (.cons h.place .nil)

/-- Numbered documents with the same bare tree draw the same, report the same, and count the same
definitions. -/
theorem same_of_bare_eq (hnumbered : root.Numbered) (hnumbered' : root'.Numbered)
    (hsvg : root.name = "svg") (h : root'.node.bare = root.node.bare) :
    settings.drawing root' = settings.drawing root ∧
      (Registry.collect root').2 = (Registry.collect root).2 ∧
        (Registry.collect root').1.counts = (Registry.collect root).1.counts := by
  obtain ⟨P, hP, hmatches⟩ := Xml.Element.exists_matches hnumbered hnumbered' h
  obtain ⟨hregistry, hreports⟩ := Registry.alike_of_matches hmatches
  exact ⟨settings.drawing_eq_of_matches hP hmatches hsvg, hreports, hregistry.counts_eq⟩

/-! ## Translations of documents that draw the same -/

variable {document document' : Xml.Document} {raised raised' signal signal' : Bool}
  {t t' : Translation}

/-- A translation has the number of definitions of its document. -/
lemma definitions_eq (h : settings.translateTree document raised = (.ok t, signal)) :
    t.definitions = (Registry.collect document.root).1.counts := by
  unfold translateTree at h
  dsimp only at h
  split_ifs at h
  · cases h
  · cases h
    rfl
  · split at h
    · cases h
      rfl
    · cases h

/-- Documents whose root elements differ in their places are both translated if no font raises the
abort signal. -/
lemma exists_translateTree_both
    (htag : document'.root.tag.unnumbered = document.root.tag.unnumbered)
    (hsvg : document.root.name = "svg") (hquiet : ∀ q, settings.fonts.raisesAbort q = false) :
    ∃ t t', settings.translateTree document false = (.ok t, false) ∧
      settings.translateTree document' false = (.ok t', false) := by
  have hname : document'.root.name = document.root.name := congrArg (·.name) htag
  obtain ⟨t, ht⟩ := settings.translateTree_ok document hsvg hquiet
  obtain ⟨t', ht'⟩ := settings.translateTree_ok document' (hname.trans hsvg) hquiet
  exact ⟨t, t', ht, ht'⟩

/-- Translations of documents that draw the same differ in the reports of their definitions alone.
-/
lemma exists_drawing_eq_append
    (hdrawing : settings.drawing document'.root = settings.drawing document.root)
    (h : settings.translateTree document raised = (.ok t, signal))
    (h' : settings.translateTree document' raised' = (.ok t', signal')) :
    ∃ d : Drawing, t.drawing = .reports (Registry.collect document.root).2 ++ d ∧
      t'.drawing = .reports (Registry.collect document'.root).2 ++ d := by
  cases hdraw : settings.definitionsOnly with
  | false =>
    refine ⟨settings.drawing document.root, settings.drawing_eq document hdraw h, ?_⟩
    rw [settings.drawing_eq document' hdraw h', hdrawing]
  | true =>
    refine ⟨.empty, ?_, ?_⟩
    · rw [settings.drawing_eq_of_definitionsOnly document hdraw h, Drawing.append_empty]
    · rw [settings.drawing_eq_of_definitionsOnly document' hdraw h', Drawing.append_empty]

end Settings

end SvgDisplayList
