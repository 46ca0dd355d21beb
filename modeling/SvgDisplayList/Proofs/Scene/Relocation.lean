import SvgDisplayList.Proofs.Drawing.Bare
import SvgDisplayList.Proofs.Scene.Reordering

/-!
# Where definitions stand

An element that holds definitions draws nothing where it stands, so it may be moved to any other
position among the children of the root element (`Relocation`).  If no two elements of the document
have the same identifier, the document draws the same, counts the same, and reports the same up to
the order of what is reported of its definitions (`Settings.same_of_relocation`).
-/

namespace SvgDisplayList

open Collection
open Xml.Element (Resembles ResemblesBelow)

/-- A child of the root element that holds definitions is moved to another position among its
siblings. -/
structure Relocation where
  /-- The tag of the root element. -/
  tag : Xml.Tag
  moved : Xml.Element
  before : List Xml.Node
  after : List Xml.Node
  before' : List Xml.Node
  after' : List Xml.Node
  name : moved.name ∈ ["defs", "symbol", "linearGradient", "radialGradient", "style"]
  others : before' ++ after' = before ++ after

namespace Relocation

variable (m : Relocation)

/-- The root element before the child is moved. -/
def source : Xml.Element := ⟨m.tag, m.before ++ m.moved.node :: m.after⟩

/-- The root element after the child has been moved. -/
def target : Xml.Element := ⟨m.tag, m.before' ++ m.moved.node :: m.after'⟩

/-! ## Elements below the root element -/

/-- The elements below the root element, in document order. -/
def below (root : Xml.Element) : List (Xml.Element × List Xml.Tag) :=
  root.children.flatMap (·.elements [root.tag])

/-- The elements of a document are the root element and those below it. -/
lemma elements_eq (root : Xml.Element) :
    root.node.elements [] = (root, []) :: below root :=
  Xml.Node.elements_element [] root.tag root.children

/-- Below the root element stand the same elements, in another order. -/
lemma perm_below : (below m.target).Perm (below m.source) := by
  have hchildren : (m.before' ++ m.moved.node :: m.after').Perm
      (m.before ++ m.moved.node :: m.after) := by
    calc (m.before' ++ m.moved.node :: m.after').Perm (m.moved.node :: (m.before' ++ m.after')) :=
          List.perm_middle
      _ = m.moved.node :: (m.before ++ m.after) := by rw [m.others]
      _ |>.Perm (m.before ++ m.moved.node :: m.after) := List.perm_middle.symm
  exact hchildren.flatMap_right _

/-- A document in which a child of the root element has been moved is still numbered. -/
lemma numbered_target (h : m.source.Numbered) : m.target.Numbered := by
  unfold Xml.Element.Numbered at h ⊢
  rw [elements_eq, List.map_cons] at h ⊢
  exact (((m.perm_below.map _).cons _).nodup_iff).mpr h

/-! ## Drawing -/

/-- The child that is moved draws nothing where it stands. -/
lemma isSilent_moved : m.moved.isSilent = true := by
  have hname : ElementKind.ofName m.moved.tag.name = .definition := by
    have hmem := m.name
    change m.moved.tag.name ∈ _ at hmem
    simp only [List.mem_cons, List.not_mem_nil, or_false] at hmem
    rcases hmem with h | h | h | h | h <;> rw [h] <;> decide
  unfold Xml.Element.isSilent
  rcases ElementKind.ofTag_eq_or_ignored m.moved.tag with hkind | hkind
  · rw [hkind, hname]
  · rw [hkind]

/-- The root element draws the same children. -/
lemma drawnChildren_target (h : ElementKind.ofTag m.tag ≠ .switch) :
    m.target.drawnChildren = m.source.drawnChildren := by
  have hdrawn : ∀ before after : List Xml.Node,
      (⟨m.tag, before ++ m.moved.node :: after⟩ : Xml.Element).drawnChildren =
        ((before ++ after).filterMap Xml.Node.element?).filter fun c => !c.isSilent := by
    intro before after
    unfold Xml.Element.drawnChildren Xml.Element.childElements
    rw [if_neg h, List.filterMap_append, List.filterMap_append,
      List.filterMap_cons_some (f := Xml.Node.element?) (b := m.moved) rfl, List.filter_append,
      List.filter_append, List.filter_cons_of_neg (by simp [m.isSilent_moved])]
  unfold target source
  rw [hdrawn, hdrawn, m.others]

variable {m}

/-- The root elements resemble each other. -/
lemma resembles (h : m.source.name = "svg") : Resembles Eq m.source m.target := by
  have hname : m.tag.name = "svg" := h
  have htext : ElementKind.ofTag m.tag ≠ .text := by
    rcases ElementKind.ofTag_eq_or_ignored m.tag with hkind | hkind
    · rw [hkind, hname]
      decide
    · rw [hkind]
      decide
  refine .intro rfl rfl ?_ fun hkind => absurd hkind htext
  rw [m.drawnChildren_target (ElementKind.ofTag_ne_switch_of_svg h)]
  exact List.forall₂_same.mpr fun c _ => .refl (fun _ => rfl) c

/-- The registry of the document in which the child has been moved, and its reports: there are the
same gradients, elements that resemble each other, and as many definitions of each sort. -/
lemma collect_target (hsvg : m.source.name = "svg")
    (hdistinct : DistinctIdentifiers (m.source.node.elements [])) :
    (∀ id, (Registry.collect m.target).1.gradient? id =
        (Registry.collect m.source).1.gradient? id) ∧
      (∀ id, Option.Rel (ResemblesBelow Eq) ((Registry.collect m.source).1.element? id)
        ((Registry.collect m.target).1.element? id)) ∧
      (Registry.collect m.target).1.counts = (Registry.collect m.source).1.counts ∧
      (Registry.collect m.target).2.Perm (Registry.collect m.source).2 := by
  -- in between stands a collection of the same elements as before in the new order
  have hperm : ((m.source, []) :: below m.target).Perm (m.source.node.elements []) := by
    rw [elements_eq]
    exact m.perm_below.cons _
  obtain ⟨helement, hgradient, hcounts, hreports⟩ := reordered_of_perm hperm hdistinct
  have halike : List.Forall₂ (Finding.Alike (ResemblesBelow Eq))
      (findingsOf ((m.source, []) :: below m.target)) (findingsOf (m.target.node.elements [])) := by
    have hnone : GradientKind.ofElementName? m.source.name = none := by
      rw [hsvg]
      rfl
    rw [elements_eq]
    refine List.rel_filterMap (fun {x x'} hx => ?_) (R := fun x x' => ResemblesBelow Eq x x' ∧
      (x = x' ∨ x = (m.source, []))) ?_
    · refine rel_finding? hx.1 hx.1.1.tag fun kind id hkind => ?_
      rcases hx.2 with rfl | rfl
      · rfl
      · rw [hnone] at hkind
        cases hkind
    · refine .cons ⟨⟨m.resembles hsvg, .nil⟩, Or.inr rfl⟩ ?_
      exact List.forall₂_same.mpr fun x _ => ⟨.refl (fun _ => rfl) x, Or.inl rfl⟩
  have hcollection := Collection.Alike.ofFindings halike
  have hregistry := hcollection.finish
  rw [collect_eq_ofElements m.source, collect_eq_ofElements m.target]
  refine ⟨fun id => ?_, fun id => ?_, ?_, ?_⟩
  · exact (hregistry.gradient?_eq id).trans (hgradient id)
  · rw [← helement id]
    exact hregistry.rel_element? (fun _ _ hx => hx) id
  · exact hregistry.counts_eq.trans hcounts
  · change (ofElements _).diagnostics.Perm _
    rw [show (ofElements (m.target.node.elements [])).diagnostics =
      (ofElements ((m.source, []) :: below m.target)).diagnostics from hcollection.diagnostics]
    exact hreports

end Relocation

/-! ## Documents -/

/-- The text of a square that is painted with a gradient before it, and of another gradient that
cannot be read. -/
def Xml.gradientBefore : String :=
  "<svg><linearGradient id=\"a\"><stop/></linearGradient>" ++
    "<rect width=\"1\" height=\"1\" fill=\"url(#a)\"/><radialGradient id=\"b\" r=\"?\"/></svg>"

/-- The text of the square before both gradients. -/
def Xml.gradientBehind : String :=
  "<svg><rect width=\"1\" height=\"1\" fill=\"url(#a)\"/><radialGradient id=\"b\" r=\"?\"/>" ++
    "<linearGradient id=\"a\"><stop/></linearGradient></svg>"

/-- The square, painted with the first gradient, at a place. -/
def Xml.gradientSquare (order : Nat) : Xml.Node :=
  .element ⟨order, none, "rect", [⟨none, "width", "1"⟩, ⟨none, "height", "1"⟩,
    ⟨none, "fill", "url(#a)"⟩]⟩ []

/-- The gradient that cannot be read, at a place. -/
def Xml.faultyGradient (order : Nat) : Xml.Node :=
  .element ⟨order, none, "radialGradient", [⟨none, "id", "b"⟩, ⟨none, "r", "?"⟩]⟩ []

/-- The gradient that the square is painted with, at a place. -/
def Xml.squareGradient (order : Nat) : Xml.Element :=
  ⟨⟨order, none, "linearGradient", [⟨none, "id", "a"⟩]⟩,
    [.element ⟨order + 1, none, "stop", []⟩ []]⟩

/-- The gradient is moved behind the square and the other gradient. -/
def Relocation.gradient : Relocation where
  tag := ⟨0, none, "svg", []⟩
  moved := Xml.squareGradient 1
  before := []
  after := [Xml.gradientSquare 3, Xml.faultyGradient 4]
  before' := [Xml.gradientSquare 3, Xml.faultyGradient 4]
  after' := []
  name := by decide
  others := rfl

namespace Settings

variable (settings : Settings) {document document' : Xml.Document}

/-- A document in which a child of the root element has been moved draws the same. -/
lemma drawing_target (m : Relocation) (hsvg : m.source.name = "svg")
    (hdistinct : DistinctIdentifiers (m.source.node.elements [])) :
    settings.drawing m.target = settings.drawing m.source := by
  obtain ⟨hgradient, helement, -, -⟩ := Relocation.collect_target hsvg hdistinct
  have hstage : (settings.stage m.source).Alike Eq (settings.stage m.target) :=
    ⟨hgradient, helement, rfl, rfl, rfl, rfl⟩
  exact Stage.nodes_resemble Stage.biUnique_eq hstage (m.resembles hsvg)
    (ElementKind.ofTag_ne_switch_of_svg hsvg) (.cons rfl .nil)

/-- It does not matter where definitions stand.  If no two elements of a document have the same
identifier, and a child of the root element that holds definitions is moved to another position
among its siblings, then the translations of both documents have the same commands, count the same
definitions, and report the same up to the order of what is reported of the definitions. -/
theorem same_of_relocation (m : Relocation) {text text' : String}
    (hread : Xml.Document.read text = .ok document) (hsource : document.root = m.source)
    (hread' : Xml.Document.read text' = .ok document')
    (htarget : document'.root.node.bare = m.target.node.bare)
    (hdistinct : DistinctIdentifiers (document.root.node.elements [])) :
    (∀ raised raised' signal signal' t t',
      settings.translateTree document raised = (.ok t, signal) →
      settings.translateTree document' raised' = (.ok t', signal') →
        t'.drawing.commands = t.drawing.commands ∧ t'.definitions = t.definitions ∧
        ∃ drawn,
          t.drawing.diagnostics = (Registry.collect document.root).2 ++ drawn ∧
          t'.drawing.diagnostics = (Registry.collect document'.root).2 ++ drawn ∧
          (Registry.collect document'.root).2.Perm (Registry.collect document.root).2) ∧
    (document.root.name = "svg" → (∀ q, settings.fonts.raisesAbort q = false) →
      ∃ t t', settings.translateTree document false = (.ok t, false) ∧
        settings.translateTree document' false = (.ok t', false)) := by
  have hnumbered := m.numbered_target (hsource ▸ Xml.Document.numbered_of_read hread)
  have hnumbered' := Xml.Document.numbered_of_read hread'
  refine ⟨fun raised raised' signal signal' t t' ht ht' => ?_, fun hsvg hquiet => ?_⟩
  · have hsvg : m.source.name = "svg" := hsource ▸ settings.root_name_of_translateTree ht
    rw [hsource] at hdistinct
    obtain ⟨-, -, hcounts, hreports⟩ := Relocation.collect_target hsvg hdistinct
    obtain ⟨hdrawing', hreports', hcounts'⟩ :=
      settings.same_of_bare_eq hnumbered hnumbered' hsvg htarget
    have hdrawing : settings.drawing document'.root = settings.drawing document.root := by
      rw [hdrawing', hsource, settings.drawing_target m hsvg hdistinct]
    obtain ⟨d, hd, hd'⟩ := settings.exists_drawing_eq_append hdrawing ht ht'
    refine ⟨?_, ?_, d.diagnostics, ?_, ?_, ?_⟩
    · rw [hd, hd']
      rfl
    · rw [settings.definitions_eq ht, settings.definitions_eq ht', hcounts', hcounts, hsource]
    · rw [hd]
      rfl
    · rw [hd']
      rfl
    · rw [hreports', hsource]
      exact hreports
  · have htag : document'.root.tag.unnumbered = document.root.tag.unnumbered :=
      hsource ▸ Xml.Node.tag_eq_of_bare_eq (e := m.target) htarget
    exact settings.exists_translateTree_both htag hsvg hquiet

set_option maxRecDepth 20000 in
/-- The square is painted with the gradient, and the other gradient is reported, wherever the
gradient stands. -/
theorem same_of_relocation_gradient :
    let document : Xml.Document := ⟨Relocation.gradient.source, []⟩
    let document' : Xml.Document :=
      ⟨⟨⟨0, none, "svg", []⟩,
        [Xml.gradientSquare 1, Xml.faultyGradient 2, (Xml.squareGradient 3).node]⟩, []⟩
    Xml.Document.read Xml.gradientBefore = .ok document ∧
    Xml.Document.read Xml.gradientBehind = .ok document' ∧
    document'.root.node.bare = Relocation.gradient.target.node.bare ∧
    DistinctIdentifiers (document.root.node.elements []) ∧
    ∃ t t', initial.translateTree document false = (.ok t, false) ∧
      initial.translateTree document' false = (.ok t', false) ∧
      t.drawing.commands.length = 1 ∧ t'.drawing.commands = t.drawing.commands ∧
      t.definitions = ⟨0, 1, 0, 0⟩ ∧ t'.definitions = t.definitions ∧
      t.drawing.diagnostics.length = 1 ∧
      ∃ drawn,
        t.drawing.diagnostics = (Registry.collect document.root).2 ++ drawn ∧
        t'.drawing.diagnostics = (Registry.collect document'.root).2 ++ drawn ∧
        (Registry.collect document'.root).2.Perm (Registry.collect document.root).2 := by
  intro document document'
  have hread : Xml.Document.read Xml.gradientBefore = .ok document := rfl
  have hread' : Xml.Document.read Xml.gradientBehind = .ok document' := rfl
  have htarget : document'.root.node.bare = Relocation.gradient.target.node.bare := by
    rfl
  have hdistinct : DistinctIdentifiers (document.root.node.elements []) := by
    unfold DistinctIdentifiers
    decide +kernel
  have hlength : (initial.drawing document.root).commands.length = 1 := by decide +kernel
  have hcounts : (Registry.collect document.root).1.counts = ⟨0, 1, 0, 0⟩ := by decide +kernel
  have hreports : ((Registry.collect document.root).2 ++
      (initial.drawing document.root).diagnostics).length = 1 := by decide +kernel
  obtain ⟨hsame, htranslated⟩ := initial.same_of_relocation Relocation.gradient hread rfl hread'
    htarget hdistinct
  obtain ⟨t, t', ht, ht'⟩ := htranslated rfl fun _ => rfl
  obtain ⟨hcommands, hdefinitions, hdrawn⟩ := hsame _ _ _ _ t t' ht ht'
  refine ⟨hread, hread', htarget, hdistinct, t, t', ht, ht', ?_, hcommands, ?_, hdefinitions, ?_,
    hdrawn⟩
  · rw [initial.commands_eq rfl ht]
    exact hlength
  · rw [initial.definitions_eq ht]
    exact hcounts
  · rw [initial.drawing_eq document rfl ht]
    exact hreports

end Settings

end SvgDisplayList
