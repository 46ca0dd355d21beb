import Mathlib.Logic.Relator
import SvgDisplayList.Proofs.Drawing.Plain

/-!
# Elements that draw the same

Elements may stand in different documents, at different places, and among different character data
and definitions, and still resemble each other: they have the same tag but for its place, the
children that they draw resemble each other, and if they are texts they have the same characters
(`Xml.Element.Resembles`).  Places are compared with each other by the test of a use alone, so all
that matters is that different places correspond to different places.

On stages with the same gradients and with elements under the same identifiers that resemble each
other, elements that resemble each other draw and report the same (`Stage.node_resembles`).
-/

namespace SvgDisplayList

namespace Xml

/-- Induction over elements: an element may use the statement for all of its child elements. -/
@[elab_as_elim]
theorem Element.induction {p : Element → Prop} (element : ∀ e, (∀ c ∈ e.childElements, p c) → p e)
    (e : Element) : p e := by
  have hnode : ∀ n : Node, ∀ e, n.element? = some e → p e := by
    intro n
    induction n using Node.induction with
    | text s =>
      intro e he
      cases he
    | element tag children ih =>
      intro e he
      cases he
      refine element _ fun c hc => ?_
      obtain ⟨n, hn, hc⟩ := List.mem_filterMap.mp hc
      exact ih n hn c hc
  exact hnode e.node e rfl

/-- A tag that differs in its place has that place and is the same in all else. -/
lemma Tag.exists_order_eq {t t' : Tag} (h : t'.unnumbered = t.unnumbered) :
    ∃ order, t' = { t with order } := by
  refine ⟨t'.order, ?_⟩
  unfold unnumbered at h
  injection h with _ hspace hname hattributes
  cases t
  cases t'
  simp_all

namespace Element

/-- Whether an element draws and reports nothing where it stands. -/
def isSilent (e : Element) : Bool :=
  match ElementKind.ofTag e.tag with
  | .ignored | .definition => true
  | _ => false

/-- The child elements that may draw or report something.  A switch may choose a child that draws
nothing, so that it has all of its children. -/
def drawnChildren (e : Element) : List Element :=
  if ElementKind.ofTag e.tag = .switch then e.childElements
  else e.childElements.filter fun c => !c.isSilent

/-- What is drawn of the children of an element are child elements. -/
lemma drawnChildren_subset (e : Element) : e.drawnChildren ⊆ e.childElements := by
  unfold drawnChildren
  split_ifs
  · exact List.Subset.refl _
  · exact List.filter_subset_self _

/-- Elements with the same tag and the same drawn children but for their places, of which `P`
relates those of the one to those of the other, and with the same characters if they are texts. -/
inductive Resembles (P : Nat → Nat → Prop) : Element → Element → Prop where
  | intro {e e' : Element} (tag : e'.tag.unnumbered = e.tag.unnumbered)
      (place : P e.tag.order e'.tag.order)
      (children : List.Forall₂ (Resembles P) e.drawnChildren e'.drawnChildren)
      (characters : ElementKind.ofTag e.tag = .text → e'.characters = e.characters) :
      Resembles P e e'

/-- Ancestors have places that correspond to each other. -/
def SamePlaces (P : Nat → Nat → Prop) : List Tag → List Tag → Prop :=
  List.Forall₂ fun a a' => P a.order a'.order

/-- An element and its ancestors resemble another element and its ancestors. -/
def ResemblesBelow (P : Nat → Nat → Prop) (x x' : Element × List Tag) : Prop :=
  Resembles P x.1 x'.1 ∧ SamePlaces P x.2 x'.2

variable {P : Nat → Nat → Prop}

namespace Resembles

variable {e e' : Element}

lemma tag (h : Resembles P e e') : e'.tag.unnumbered = e.tag.unnumbered := by
  cases h
  assumption

lemma place (h : Resembles P e e') : P e.tag.order e'.tag.order := by
  cases h
  assumption

lemma children (h : Resembles P e e') :
    List.Forall₂ (Resembles P) e.drawnChildren e'.drawnChildren := by
  cases h
  assumption

lemma characters (h : Resembles P e e') :
    ElementKind.ofTag e.tag = .text → e'.characters = e.characters := by
  cases h
  assumption

lemma name_eq (h : Resembles P e e') : e'.name = e.name := congrArg (·.name) h.tag

/-- Every element resembles itself. -/
lemma refl (hP : ∀ order, P order order) (e : Element) : Resembles P e e := by
  induction e using induction with
  | element e ih =>
    refine .intro rfl (hP _) ?_ fun _ => rfl
    exact List.forall₂_same.mpr fun c hc => ih c (drawnChildren_subset e hc)

end Resembles

/-- Ancestors have the places that they have. -/
lemma SamePlaces.refl (hP : ∀ order, P order order) (ancestors : List Tag) :
    SamePlaces P ancestors ancestors :=
  List.forall₂_same.mpr fun _ _ => hP _

/-- Every element with its ancestors resembles itself. -/
lemma ResemblesBelow.refl (hP : ∀ order, P order order) (x : Element × List Tag) :
    ResemblesBelow P x x :=
  ⟨.refl hP x.1, .refl hP x.2⟩

end Element

end Xml

/-! ## Paints with their reports -/

section Paints

variable {registry registry' : Registry}

/-- Registries of which paints make the same: they have the same gradients, and elements of the same
name under the same identifiers. -/
structure Registry.PaintsAlike (registry registry' : Registry) : Prop where
  gradient : ∀ id, registry'.gradient? id = registry.gradient? id
  name : ∀ id, (registry'.element? id).map (·.1.name) = (registry.element? id).map (·.1.name)

/-- A paint depends on the gradients and on the names of elements, and so do its reports. -/
lemma PaintScope.paint_eq (h : registry.PaintsAlike registry') (sizes : ReferenceSizes)
    (box? : Option Box) (source : PaintSource) (opacity : Float32) (style : Style) :
    (⟨registry', sizes, box?⟩ : PaintScope).paint source opacity style =
      (⟨registry, sizes, box?⟩ : PaintScope).paint source opacity style := by
  have hserver : ∀ id opacity fallback,
      (⟨registry', sizes, box?⟩ : PaintScope).server id opacity fallback =
        (⟨registry, sizes, box?⟩ : PaintScope).server id opacity fallback := by
    intro id opacity fallback
    have hname := h.name id
    unfold server
    dsimp only
    rw [h.gradient id]
    cases registry.gradient? id with
    | some g => rfl
    | none =>
      dsimp only
      cases he : registry.element? id with
      | none =>
        rw [he, Option.map_none, Option.map_eq_none_iff] at hname
        rw [hname]
      | some x =>
        rw [he, Option.map_some, Option.map_eq_some_iff] at hname
        obtain ⟨x', hx', hname⟩ := hname
        rw [hx']
        dsimp only
        rw [hname]
  cases source with
  | none | color c | currentColor => rfl
  | server id fallback => exact hserver _ _ _

/-- So does the command of an outline. -/
lemma PathCommand.ofSubpaths_eq (h : registry.PaintsAlike registry') (subpaths : List Subpath)
    (style : Style) (sizes : ReferenceSizes) :
    ofSubpaths subpaths style registry' sizes = ofSubpaths subpaths style registry sizes := by
  unfold ofSubpaths PaintScope.fill PaintScope.stroke
  simp only [PaintScope.paint_eq h]

/-- So does the command of a text. -/
lemma TextCommand.ofElement_eq {e e' : Xml.Element} (h : registry.PaintsAlike registry')
    (htag : e'.tag.unnumbered = e.tag.unnumbered) (hcharacters : e'.characters = e.characters)
    (style : Style) (sizes : ReferenceSizes) (fonts : FontSource) :
    ofElement e' style registry' sizes fonts = ofElement e style registry sizes fonts := by
  have hposition : positionOf e'.tag sizes = positionOf e.tag sizes := by
    obtain ⟨order, horder⟩ := Xml.Tag.exists_order_eq htag
    rw [horder]
    rfl
  unfold ofElement
  simp only [hposition, hcharacters, PaintScope.paint_eq h]

end Paints

/-! ## Stages -/

/-- An element has the kind of its name, or it means nothing. -/
lemma ElementKind.ofTag_eq_or_ignored (t : Xml.Tag) :
    ofTag t = ofName t.name ∨ ofTag t = .ignored := by
  unfold ofTag
  split
  · exact Or.inl rfl
  · split_ifs
    · exact Or.inl rfl
    · exact Or.inr rfl

/-- A switch has the name of switches. -/
lemma ElementKind.ofTag_ne_switch {t : Xml.Tag} (h : t.name ≠ "switch") :
    ElementKind.ofTag t ≠ .switch := by
  have hname : ElementKind.ofName t.name ≠ .switch := by
    unfold ofName
    split
    · exact ElementKind.noConfusion
    · split_ifs <;> exact ElementKind.noConfusion
  rcases ofTag_eq_or_ignored t with hkind | hkind
  · rwa [hkind]
  · rw [hkind]
    exact ElementKind.noConfusion

/-- The root element of a document that is drawn is no switch. -/
lemma ElementKind.ofTag_ne_switch_of_svg {root : Xml.Element} (h : root.name = "svg") :
    ElementKind.ofTag root.tag ≠ .switch := by
  refine ofTag_ne_switch ?_
  rw [show root.tag.name = "svg" from h]
  decide

namespace Stage

open Xml.Element (Resembles SamePlaces ResemblesBelow)

variable {P : Nat → Nat → Prop} {stage stage' : Stage}

/-- Stages that differ in their registries, of which paints make the same. -/
structure PaintsAlike (stage stage' : Stage) : Prop where
  registry : stage.registry.PaintsAlike stage'.registry
  fonts : stage'.fonts = stage.fonts
  width : stage'.viewportWidth = stage.viewportWidth
  height : stage'.viewportHeight = stage.viewportHeight

/-- Lengths refer to the same sizes. -/
lemma PaintsAlike.sizes_eq (h : stage.PaintsAlike stage') (fontSize : Float32) :
    stage'.sizes fontSize = stage.sizes fontSize := by
  unfold Stage.sizes
  rw [h.width, h.height]

/-- Stages that differ in their registries, which have the same gradients, and elements under the
same identifiers that resemble each other. -/
structure Alike (P : Nat → Nat → Prop) (stage stage' : Stage) : Prop where
  gradient : ∀ id, stage'.registry.gradient? id = stage.registry.gradient? id
  element : ∀ id,
    Option.Rel (ResemblesBelow P) (stage.registry.element? id) (stage'.registry.element? id)
  fonts : stage'.fonts = stage.fonts
  width : stage'.viewportWidth = stage.viewportWidth
  height : stage'.viewportHeight = stage.viewportHeight
  limit : stage'.reuseLimit = stage.reuseLimit

/-- Paints make the same of the registries. -/
lemma Alike.paintsAlike (h : stage.Alike P stage') : stage.PaintsAlike stage' := by
  refine ⟨⟨h.gradient, fun id => ?_⟩, h.fonts, h.width, h.height⟩
  have helement := h.element id
  generalize stage.registry.element? id = x? at helement ⊢
  generalize stage'.registry.element? id = x'? at helement ⊢
  cases helement with
  | none => rfl
  | some hx => exact congrArg some hx.1.name_eq

/-! ## Elements without elements of their own -/

variable {e e' : Xml.Element} {place : Place}

/-- A shape draws and reports the same. -/
lemma shape_eq (h : stage.PaintsAlike stage') (htag : e'.tag.unnumbered = e.tag.unnumbered)
    (shape : Shape) :
    Drawing.orFault e'.tag (stage'.shape shape e'.tag place) =
      Drawing.orFault e.tag (stage.shape shape e.tag place) := by
  obtain ⟨order, horder⟩ := Xml.Tag.exists_order_eq htag
  unfold Stage.shape
  rw [h.sizes_eq, horder]
  simp only [PathCommand.ofSubpaths_eq h.registry]
  rfl

/-- A text draws and reports the same. -/
lemma text_eq (h : stage.PaintsAlike stage') (htag : e'.tag.unnumbered = e.tag.unnumbered)
    (hcharacters : e'.characters = e.characters) :
    Drawing.orFault e'.tag (stage'.text e' place) =
      Drawing.orFault e.tag (stage.text e place) := by
  obtain ⟨order, horder⟩ := Xml.Tag.exists_order_eq htag
  unfold Stage.text
  rw [h.sizes_eq, h.fonts]
  simp only [TextCommand.ofElement_eq h.registry htag hcharacters]
  rw [horder]
  rfl

/-- An image draws and reports the same. -/
lemma image_eq (h : stage.PaintsAlike stage') (htag : e'.tag.unnumbered = e.tag.unnumbered) :
    Drawing.orFault e'.tag (stage'.image e'.tag place) =
      Drawing.orFault e.tag (stage.image e.tag place) := by
  obtain ⟨order, horder⟩ := Xml.Tag.exists_order_eq htag
  unfold Stage.image
  rw [h.sizes_eq, horder]
  rfl

/-- The test of a use whether its target stands around it has the same outcome. -/
lemma any_order_eq (hP : Relator.BiUnique P) {tags tags' : List Xml.Tag} {target target' : Xml.Tag}
    (htags : SamePlaces P tags tags') (htarget : P target.order target'.order) :
    tags'.any (·.order == target'.order) = tags.any (·.order == target.order) := by
  induction htags with
  | nil => rfl
  | @cons a a' _ _ ha _ ih =>
    have hiff : a'.order = target'.order ↔ a.order = target.order := by
      constructor
      · intro heq
        exact hP.1 ha (heq ▸ htarget)
      · intro heq
        exact hP.2 ha (heq ▸ htarget)
    rw [List.any_cons, List.any_cons, ih]
    congr 1
    rw [Bool.eq_iff_iff, beq_iff_eq, beq_iff_eq, hiff]

/-- What uses do to targets that resemble each other is the same. -/
def ReusesAlike (P : Nat → Nat → Prop) (reuse? reuse'? : Option Reuse) : Prop :=
  Option.Rel (fun reuse reuse' : Reuse => ∀ target target' above above' place width height,
    Resembles P target target' → SamePlaces P above above' →
      reuse' target' above' place width height = reuse target above place width height)
    reuse? reuse'?

/-- A use draws and reports the same. -/
lemma use_eq (hP : Relator.BiUnique P) (h : stage.Alike P stage') {reuse? reuse'? : Option Reuse}
    (hreuse : ReusesAlike P reuse? reuse'?) (he : Resembles P e e') {above above' : List Xml.Tag}
    (habove : SamePlaces P above above') :
    Drawing.orFault e'.tag (stage'.use reuse'? e'.tag above' place) =
      Drawing.orFault e.tag (stage.use reuse? e.tag above place) := by
  obtain ⟨order, horder⟩ := Xml.Tag.exists_order_eq he.tag
  have hreference : e'.tag.reference? = e.tag.reference? := by
    rw [horder]
    rfl
  have hfault : ∀ err, Drawing.fault e'.tag err = Drawing.fault e.tag err := by
    intro err
    rw [horder]
    rfl
  have hlengths : ∀ name axis, e'.tag.length name axis = e.tag.length name axis ∧
      e'.tag.length? name axis = e.tag.length? name axis := by
    intro name axis
    rw [horder]
    exact ⟨rfl, rfl⟩
  have horFault : Drawing.orFault e'.tag = Drawing.orFault e.tag := by
    funext r
    cases r with
    | ok d => rfl
    | error err => rw [Drawing.orFault_error, Drawing.orFault_error, hfault]
  rw [horFault]
  congr 1
  unfold Stage.use
  rw [hreference, h.paintsAlike.sizes_eq, h.limit]
  cases e.tag.reference? with
  | none => rfl
  | some id =>
    have helement := h.element id
    dsimp only
    generalize stage.registry.element? id = x? at helement ⊢
    generalize stage'.registry.element? id = x'? at helement ⊢
    cases helement with
    | none => rfl
    | @some x x' hx =>
      obtain ⟨target, targetAbove⟩ := x
      obtain ⟨target', targetAbove'⟩ := x'
      obtain ⟨htarget, htargetAbove⟩ := hx
      have hany := any_order_eq hP (.cons he.place habove) htarget.place
      dsimp only
      rw [hany]
      split_ifs
      · rfl
      · cases hreuse with
        | none => rfl
        | some hdraws =>
          simp only [(hlengths _ _).1, (hlengths _ _).2]
          simp only [hdraws target target' targetAbove targetAbove' _ _ _ htarget htargetAbove]

/-! ## Elements with their children -/

/-- An element is entered alike. -/
lemma enter_eq_of_paintsAlike (h : stage.PaintsAlike stage')
    (htag : e'.tag.unnumbered = e.tag.unnumbered) (style : Style) :
    entryReports e'.tag = entryReports e.tag ∧
      stage'.entered? e'.tag style = stage.entered? e.tag style := by
  obtain ⟨order, horder⟩ := Xml.Tag.exists_order_eq htag
  unfold Stage.entered?
  rw [h.sizes_eq, horder]
  exact ⟨rfl, rfl⟩

/-- A silent element draws nothing. -/
lemma node_of_isSilent {reuse? : Option Reuse} {above : List Xml.Tag} (h : e.isSilent = true) :
    stage.node reuse? e.node above place = .empty := by
  have haside : aside? e.tag = some .empty := by
    unfold Xml.Element.isSilent at h
    unfold aside?
    split at h
    · rename_i hkind
      rw [hkind]
    · rename_i hkind
      rw [hkind]
    · cases h
  unfold Xml.Element.node
  rw [node_element, haside]
  rfl

/-- The children of an element that is no switch are drawn by drawing those that are not silent. -/
lemma nodes_eq_drawnChildren (reuse? : Option Reuse) (h : ElementKind.ofTag e.tag ≠ .switch)
    (above : List Xml.Tag) :
    stage.nodes reuse? e.children above place =
      stage.nodes reuse? (e.drawnChildren.map Xml.Element.node) above place := by
  unfold Xml.Element.drawnChildren Xml.Element.childElements
  rw [if_neg h]
  induction e.children with
  | nil => rfl
  | cons n ns ih =>
    rw [nodes_cons, ih]
    cases n with
    | text s => rw [node, Drawing.empty_append]; rfl
    | element tag children =>
      change _ = stage.nodes reuse?
        (((⟨tag, children⟩ :: ns.filterMap Xml.Node.element?).filter _).map _) above place
      rw [List.filter_cons]
      split_ifs with hsilent
      · rw [List.map_cons, nodes_cons]
        rfl
      · have hnode : stage.node reuse? (Xml.Element.node ⟨tag, children⟩) above place = .empty :=
          node_of_isSilent (by simpa using hsilent)
        change stage.node reuse? (Xml.Element.node ⟨tag, children⟩) above place ++ _ = _
        rw [hnode, Drawing.empty_append]

/-- A switch chooses among its child elements. -/
lemma find?_isChoice_eq_elements (ns : List Xml.Node) :
    ns.find? isChoice =
      ((ns.filterMap Xml.Node.element?).map Xml.Element.node).find? isChoice := by
  induction ns with
  | nil => rfl
  | cons n ns ih =>
    cases n with
    | text s =>
      rw [List.find?_cons_of_neg (by simp [isChoice]), ih]
      rfl
    | element tag children =>
      change _ = ((Xml.Node.element tag children) :: _).find? isChoice
      rw [List.find?_cons, List.find?_cons, ih]

section Children

variable {reuse? reuse'? : Option Reuse} {es es' : List Xml.Element} {above above' : List Xml.Tag}

/-- Lists of elements that draw the same one by one draw the same. -/
lemma nodes_eq_of_forall₂
    (h : List.Forall₂ (fun c c' : Xml.Element => ∀ place,
      stage'.node reuse'? c'.node above' place = stage.node reuse? c.node above place) es es') :
    stage'.nodes reuse'? (es'.map Xml.Element.node) above' place =
      stage.nodes reuse? (es.map Xml.Element.node) above place := by
  induction h with
  | nil => rfl
  | cons hc _ ih => rw [List.map_cons, List.map_cons, nodes_cons, nodes_cons, hc, ih]

/-- Switches whose child elements have the same tags and draw the same one by one draw the same. -/
lemma firstNode_eq_of_forall₂
    (h : List.Forall₂ (fun c c' : Xml.Element => c'.tag.unnumbered = c.tag.unnumbered ∧
      ∀ place, stage'.node reuse'? c'.node above' place = stage.node reuse? c.node above place)
      es es') :
    stage'.firstNode reuse'? (es'.map Xml.Element.node) above' place =
      stage.firstNode reuse? (es.map Xml.Element.node) above place := by
  induction h with
  | nil => rfl
  | @cons c c' _ _ hc _ ih =>
    have hcandidate : isCandidate c'.tag = isCandidate c.tag := by
      obtain ⟨order, horder⟩ := Xml.Tag.exists_order_eq hc.1
      rw [horder]
      rfl
    rw [List.map_cons, List.map_cons]
    unfold Xml.Element.node at hc ⊢
    rw [firstNode, firstNode, hcandidate, hc.2]
    split_ifs
    · rfl
    · exact ih

end Children

/-- Elements that resemble each other draw the same if their children and the targets of their uses
do. -/
lemma node_eq_of_children (hP : Relator.BiUnique P) (h : stage.Alike P stage')
    {reuse? reuse'? : Option Reuse} (hreuse : ReusesAlike P reuse? reuse'?)
    (he : Resembles P e e')
    (hchildren : ∀ c ∈ e.childElements, ∀ c' above above' place, Resembles P c c' →
      SamePlaces P above above' →
        stage'.node reuse'? c'.node above' place = stage.node reuse? c.node above place)
    {above above' : List Xml.Tag} (habove : SamePlaces P above above') :
    stage'.node reuse'? e'.node above' place = stage.node reuse? e.node above place := by
  obtain ⟨order, horder⟩ := Xml.Tag.exists_order_eq he.tag
  have haside : aside? e'.tag = aside? e.tag := by
    rw [horder]
    rfl
  have hkind : ElementKind.ofTag e'.tag = ElementKind.ofTag e.tag := by
    rw [horder]
    rfl
  obtain ⟨hreports, hentered⟩ := enter_eq_of_paintsAlike h.paintsAlike he.tag place.style
  have hinner : SamePlaces P (e.tag :: above) (e'.tag :: above') := .cons he.place habove
  have hdraw : List.Forall₂ (fun c c' : Xml.Element => c'.tag.unnumbered = c.tag.unnumbered ∧
      ∀ place, stage'.node reuse'? c'.node (e'.tag :: above') place =
        stage.node reuse? c.node (e.tag :: above) place) e.drawnChildren e'.drawnChildren :=
    forall₂_imp_of_mem he.children fun c hc c' hcc' =>
      ⟨hcc'.tag, fun place =>
        hchildren c (e.drawnChildren_subset hc) c' _ _ place hcc' hinner⟩
  have hcontent : ∀ place, stage'.content reuse'? e' above' place =
      stage.content reuse? e above place := by
    intro place
    unfold content
    rw [hkind]
    cases hk : ElementKind.ofTag e.tag with
    | group =>
      have hnot : ElementKind.ofTag e.tag ≠ .switch := by simp [hk]
      dsimp only
      rw [nodes_eq_drawnChildren _ hnot, nodes_eq_drawnChildren _ (hkind ▸ hnot)]
      exact nodes_eq_of_forall₂ (hdraw.imp fun _ _ hc => hc.2)
    | switch =>
      unfold Xml.Element.drawnChildren at hdraw
      rw [if_pos hk, if_pos (hkind.trans hk)] at hdraw
      dsimp only
      rw [firstNode_eq, firstNode_eq, find?_isChoice_eq_elements,
        find?_isChoice_eq_elements e.children, ← firstNode_eq, ← firstNode_eq]
      exact firstNode_eq_of_forall₂ hdraw
    | shape s => exact shape_eq h.paintsAlike he.tag s
    | text => exact text_eq h.paintsAlike he.tag (he.characters hk)
    | image => exact image_eq h.paintsAlike he.tag
    | use => exact use_eq hP h hreuse he habove
    | definition | unsupported | ignored | unknown => rfl
  unfold Xml.Element.node
  rw [node_element, node_element, haside, hreports, hentered]
  simp only [hcontent]

/-- Elements that resemble each other draw and report the same, on every level. -/
theorem node_resembles (hP : Relator.BiUnique P) (h : stage.Alike P stage') (depth : Nat) :
    ReusesAlike P (stage.reuse depth) (stage'.reuse depth) ∧
      ∀ e e' above above' place, Resembles P e e' → SamePlaces P above above' →
        stage'.node (stage'.reuse depth) e'.node above' place =
          stage.node (stage.reuse depth) e.node above place := by
  have hnode : ∀ {depth}, ReusesAlike P (stage.reuse depth) (stage'.reuse depth) →
      ∀ e e' above above' place, Resembles P e e' → SamePlaces P above above' →
        stage'.node (stage'.reuse depth) e'.node above' place =
          stage.node (stage.reuse depth) e.node above place := by
    intro depth hreuse e
    induction e using Xml.Element.induction with
    | element e ih =>
      intro e' above above' place he habove
      exact node_eq_of_children hP h hreuse he ih habove
  have hreuse : ReusesAlike P (stage.reuse depth) (stage'.reuse depth) := by
    induction depth with
    | zero => exact .none
    | succ depth ih =>
      refine .some fun target target' above above' place width height htarget habove => ?_
      have hsymbol : target.name = "symbol" → ∀ (style : Style) (matrix : Matrix),
          stage'.nodes (stage'.reuse depth) target'.children (target'.tag :: above')
            ({ place with style }.moved (matrix.mul (symbolFit target'.tag width height))) =
          stage.nodes (stage.reuse depth) target.children (target.tag :: above)
            ({ place with style }.moved (matrix.mul (symbolFit target.tag width height))) := by
        intro hsymbol style matrix
        have hfit : symbolFit target'.tag width height = symbolFit target.tag width height := by
          obtain ⟨order, horder⟩ := Xml.Tag.exists_order_eq htarget.tag
          rw [horder]
          rfl
        have hname : target.tag.name ≠ "switch" := by
          rw [show target.tag.name = "symbol" from hsymbol]
          decide
        have hname' : target'.tag.name ≠ "switch" := by
          rwa [show target'.tag.name = target.tag.name from htarget.name_eq]
        rw [hfit, nodes_eq_drawnChildren _ (ElementKind.ofTag_ne_switch hname),
          nodes_eq_drawnChildren _ (ElementKind.ofTag_ne_switch hname')]
        refine nodes_eq_of_forall₂ (htarget.children.imp fun c c' hc place => ?_)
        exact hnode ih c c' _ _ place hc (.cons htarget.place habove)
      obtain ⟨hreports, hentered⟩ := enter_eq_of_paintsAlike h.paintsAlike htarget.tag place.style
      dsimp only
      rw [htarget.name_eq]
      split_ifs with hname
      · rw [enter_eq, enter_eq, hreports, hentered]
        simp only [hsymbol hname]
      · exact hnode ih target target' above above' place htarget habove
  exact ⟨hreuse, hnode hreuse⟩

/-- The children of a root element that resembles another one draw the same as those of the
other. -/
theorem nodes_resemble (hP : Relator.BiUnique P) (h : stage.Alike P stage') (he : Resembles P e e')
    (hkind : ElementKind.ofTag e.tag ≠ .switch) {above above' : List Xml.Tag}
    (habove : SamePlaces P above above') :
    stage'.nodes (stage'.reuse stage'.reuseLimit) e'.children above' place =
      stage.nodes (stage.reuse stage.reuseLimit) e.children above place := by
  have hkind' : ElementKind.ofTag e'.tag ≠ .switch := by
    obtain ⟨order, horder⟩ := Xml.Tag.exists_order_eq he.tag
    rw [horder]
    exact hkind
  rw [h.limit, nodes_eq_drawnChildren _ hkind, nodes_eq_drawnChildren _ hkind']
  refine nodes_eq_of_forall₂ (he.children.imp fun c c' hc place => ?_)
  exact (node_resembles hP h _).2 c c' above above' place hc habove

end Stage

end SvgDisplayList
