import SvgDisplayList.Proofs.Inlining.Walk
import SvgDisplayList.Proofs.Xml.Numbering

/-!
# A use is the same as its target inlined

A document in which a use has been inlined has the commands of the original document, matrices being
the same up to the sign of zeros, if no use is refused in either of the two because it leads back or
is too deep (`Settings.commands_inlining`).  The walk over the one document is followed by the walk
over the other one from moment to moment (`Inlining.exists_mirrorsWalk`), to the end of both.
-/

namespace SvgDisplayList

namespace Inlining

/-! ## What a use must be like to be inlined -/

/-- A use of a document can be inlined: it has no identifiers, it stands in a group or directly
below the root and in no text, its target is no symbol, and whenever it is drawn its lengths can be
read and its position is the given one. -/
structure Applies (i : Inlining) (settings : Settings) (root : Xml.Element) : Prop where
  kind : ElementKind.ofTag i.use.tag = .use
  anonymous : i.use.node.IsAnonymous
  stands : ∃ parent above, (i.use, parent :: above) ∈ root.node.elements [] ∧
    (parent :: above = [root.tag] ∨ ElementKind.ofTag parent = .group) ∧
    ∀ a ∈ parent :: above, ElementKind.ofTag a ≠ .text
  refers : ∃ id above, i.use.tag.reference? = some id ∧
    (Registry.collect root).1.element? id = some (i.target, above)
  symbol : i.target.name ≠ "symbol"
  xText : finiteNumber? i.xText.toList = some i.x
  yText : finiteNumber? i.yText.toList = some i.y
  /-- A length in ems may be another number each time that the use is drawn, while the group in its
  stead moves by the same numbers.  So the numbers are asked for in every style it is drawn in. -/
  lengths : ∀ moment ancestors style rest,
    (settings.walk root moment).agenda = .content i.use ancestors style :: rest →
      ∃ width height, Stage.useLengths i.use.tag ((settings.stage root).sizes style.fontSize) =
        .ok (i.x, i.y, width, height)

namespace Applies

variable {i : Inlining} {settings : Settings} {root root' : Xml.Element}

/-- In a numbered document the use alone stands at its place. -/
lemma atUse (h : i.Applies settings root) (hnumbered : root.Numbered) (hsvg : root.name = "svg") :
    ∀ x ∈ root.node.elements [], Mirrors.AtUse i x := by
  intro x hx horder
  obtain ⟨parent, above, hmem, hparent, htext⟩ := h.stands
  obtain rfl := hnumbered.eq_of_order_eq hx hmem horder
  refine ⟨rfl, htext, fun p hp => ?_⟩
  obtain rfl : parent = p := Option.some.inj hp
  rcases hparent with hroot | hgroup
  · obtain ⟨rfl, -⟩ := List.cons.inj hroot
    unfold ElementKind.ofTag
    rw [show root.tag.name = "svg" from hsvg]
    split
    · decide
    · split_ifs <;> decide
  · rw [hgroup]
    decide

end Applies

end Inlining

namespace Settings

/-- The walk comes to every state that it leads to. -/
lemma exists_walk_of_leads {settings : Settings} {root : Xml.Element} {moment : Nat} {w : Walk}
    (h : (settings.stage root).Leads (settings.walk root moment) w) :
    ∃ later, settings.walk root later = w := by
  obtain ⟨k, rfl⟩ := h
  exact ⟨k + moment, Function.iterate_add_apply _ _ _ _⟩

end Settings

namespace Inlining

variable {i : Inlining} {settings : Settings} {root root' : Xml.Element}

/-- The roots have the same plain tag, and their children mirror each other. -/
lemma mirrors_root (h : i.Applies settings root) (hnumbered : root.Numbered)
    (hsvg : root.name = "svg")
    (hroot : root'.node.unnumbered =
      (Xml.Node.replace i.use.tag.order i.node root.node).unnumbered) :
    root'.tag.plain = root.tag.plain ∧ List.Forall₂ (Mirrors i) root.children root'.children := by
  have hmirrors := Mirrors.of_replace (h.atUse hnumbered hsvg) hroot
  rcases hmirrors.cases_element with ⟨tag', children', heq, htag, hchildren, -⟩ | ⟨huse, -⟩
  · obtain rfl : root' = ⟨tag', children'⟩ := Xml.Element.node_injective heq
    exact ⟨htag, hchildren⟩
  · have hname := ElementKind.name_eq_of_use h.kind
    rw [← huse] at hname
    exact absurd (hname.symm.trans hsvg) (by decide)

/-- At the start nothing has been drawn, and the children of the roots mirror each other. -/
lemma mirrorsWalk_start (h : i.Applies settings root) (hnumbered : root.Numbered)
    (hsvg : root.name = "svg")
    (hroot : root'.node.unnumbered =
      (Xml.Node.replace i.use.tag.order i.node root.node).unnumbered) :
    MirrorsStage i (settings.stage root) (settings.stage root') ∧
      MirrorsWalk i (settings.walk root 0) (settings.walk root' 0) := by
  obtain ⟨htag, hchildren⟩ := mirrors_root h hnumbered hsvg hroot
  have hregistry := mirrorsRegistry_collect h.kind h.anonymous (h.atUse hnumbered hsvg) hroot
  have hframe : Frame.ofRoot settings root'.tag = Frame.ofRoot settings root.tag :=
    Frame.ofRoot_congr (.of_plain_eq htag) settings
  have hstage : MirrorsStage i (settings.stage root) (settings.stage root') :=
    ⟨hregistry, rfl, congrArg (·.width) hframe, congrArg (·.height) hframe⟩
  have hplace : settings.rootPlace root' = settings.rootPlace root := by
    unfold Settings.rootPlace Frame.place
    rw [hframe, hstage.sizes_eq, Declarations.ofTag_eq_of_plain_eq htag]
  rw [Settings.walk_zero, Settings.walk_zero, hplace]
  refine ⟨hstage, .cons (.refl _) .nil, .nil, ?_⟩
  exact List.rel_append (MirrorsWalk.forall₂_nodes hchildren _ _ _) (.cons (.leave _ _ _ _) .nil)

/-- Every step of the walk over the document is followed by steps of the walk over the one in which
the use has been inlined. -/
lemma exists_advance (h : i.Applies settings root)
    (hstage : MirrorsStage i (settings.stage root) (settings.stage root')) {moment moment' : Nat}
    (hw : MirrorsWalk i (settings.walk root moment) (settings.walk root' moment'))
    (hown : (settings.walk root (moment + 1)).drawn.ReportsOwn)
    (hown' : (settings.walk root' (moment' + 1)).drawn.ReportsOwn) :
    ∃ w', (settings.stage root').Leads (settings.walk root' moment') w' ∧
      MirrorsWalk i (settings.walk root (moment + 1)) w' := by
  have hlengths := h.lengths moment
  rw [Settings.walk_succ] at hown hown' ⊢
  generalize settings.walk root moment = w at hw hlengths hown
  generalize settings.walk root' moment' = w' at hw hown'
  obtain ⟨ms, chain, drawn, agenda⟩ := w
  obtain ⟨ms', chain', drawn', agenda'⟩ := w'
  obtain ⟨hmatrices, hcommands, hagenda⟩ := hw
  cases hagenda with
  | nil => exact ⟨_, .refl _ _, hmatrices, hcommands, .nil⟩
  | @cons t t' ts ts' ht hts =>
    have hrest : MirrorsWalk i ⟨ms, chain, drawn, ts⟩ ⟨ms', chain', drawn', ts'⟩ :=
      ⟨hmatrices, hcommands, hts⟩
    have hleads := (settings.stage root').leads_perform ⟨ms', chain', drawn', ts'⟩ t'
    cases ht with
    | node ancestors ancestors' style hn =>
      exact ⟨_, hleads, hrest.perform_node h.kind hstage hn _ _ _⟩
    | symbol ancestors ancestors' style width height hname he =>
      exact ⟨_, hleads, hrest.perform_symbol h.kind hstage hname he _ _ _ _ _⟩
    | leave => exact ⟨_, hleads, hrest.pop⟩
    | endUse | endInlined =>
      exact ⟨_, hleads, hrest.pop.matrices, hrest.pop.commands, hrest.pop.agenda⟩
    | @content e e' ancestors ancestors' style he =>
      rcases he.cases_element with ⟨tag', children', heq, htag, hchildren, hcharacters, hchoices⟩ |
        ⟨rfl, hinlined⟩
      · obtain rfl : e' = ⟨tag', children'⟩ := Xml.Element.node_injective heq
        exact ⟨_, hleads, hrest.perform_content h.kind hstage htag hchildren hcharacters hchoices
          hown hown'⟩
      · obtain ⟨id, above, hreference, htarget⟩ := h.refers
        obtain ⟨width, height, hlengths⟩ := hlengths _ _ _ rfl
        exact hrest.exists_leads h.kind h.symbol h.xText h.yText hreference htarget hlengths
          hinlined hown

/-- At every moment the walk over the document has been followed by the walk over the one in which
the use has been inlined. -/
theorem exists_mirrorsWalk (h : i.Applies settings root) (hnumbered : root.Numbered)
    (hsvg : root.name = "svg")
    (hroot : root'.node.unnumbered = (Xml.Node.replace i.use.tag.order i.node root.node).unnumbered)
    (hown : (settings.drawing root).ReportsOwn) (hown' : (settings.drawing root').ReportsOwn)
    (moment : Nat) :
    ∃ moment', MirrorsWalk i (settings.walk root moment) (settings.walk root' moment') := by
  obtain ⟨hstage, hstart⟩ := mirrorsWalk_start h hnumbered hsvg hroot
  have hreports : ∀ moment, (settings.walk root moment).drawn.ReportsOwn :=
    fun moment tag id? e he => hown tag id? e (settings.diagnostics_subset_drawing root moment he)
  have hreports' : ∀ moment, (settings.walk root' moment).drawn.ReportsOwn :=
    fun moment tag id? e he => hown' tag id? e (settings.diagnostics_subset_drawing root' moment he)
  induction moment with
  | zero => exact ⟨0, hstart⟩
  | succ moment ih =>
    obtain ⟨moment', hw⟩ := ih
    obtain ⟨w', hleads, hw'⟩ := exists_advance h hstage hw (hreports _) (hreports' _)
    obtain ⟨later, rfl⟩ := Settings.exists_walk_of_leads hleads
    exact ⟨later, hw'⟩

/-- The commands of the two drawings agree. -/
theorem forall₂_commands (h : i.Applies settings root) (hnumbered : root.Numbered)
    (hsvg : root.name = "svg")
    (hroot : root'.node.unnumbered = (Xml.Node.replace i.use.tag.order i.node root.node).unnumbered)
    (hown : (settings.drawing root).ReportsOwn) (hown' : (settings.drawing root').ReportsOwn) :
    List.Forall₂ DrawCommand.Agrees (settings.drawing root).commands
      (settings.drawing root').commands := by
  obtain ⟨last, hlast⟩ := settings.exists_walk_done root
  obtain ⟨last', -, hcommands, hagenda⟩ := exists_mirrorsWalk h hnumbered hsvg hroot hown hown' last
  -- where there is nothing left to do in the one walk, there is nothing left to do in the other
  rw [hlast] at hcommands hagenda
  have hdone : (settings.walk root' last').agenda = [] := (List.forall₂_nil_left_iff.mp hagenda)
  rw [settings.drawn_eq_of_agenda_eq_nil hdone] at hcommands
  exact hcommands

end Inlining

/-! ## Translations -/

/-- The text of two squares that are defined and drawn through a use, the second one through a use
of the first. -/
def Xml.squares : String :=
  "<svg><defs><g id=\"a\" fill=\"red\"><rect id=\"r\" width=\"2\" height=\"1\"/>" ++
    "<use href=\"#r\" y=\"5\"/></g></defs>" ++
    "<g><use href=\"#a\" x=\"4\" y=\"3\" opacity=\"0.5\"/></g></svg>"

namespace Inlining

/-- The definition of these squares. -/
def squaresTarget : Xml.Element :=
  ⟨⟨2, none, "g", [⟨none, "id", "a"⟩, ⟨none, "fill", "red"⟩]⟩,
    [.element
      ⟨3, none, "rect", [⟨none, "id", "r"⟩, ⟨none, "width", "2"⟩, ⟨none, "height", "1"⟩]⟩ [],
    .element ⟨4, none, "use", [⟨none, "href", "#r"⟩, ⟨none, "y", "5"⟩]⟩ []]⟩

/-- The use of this definition. -/
def squares : Inlining where
  use :=
    ⟨⟨6, none, "use", [⟨none, "href", "#a"⟩, ⟨none, "x", "4"⟩, ⟨none, "y", "3"⟩,
      ⟨none, "opacity", "0.5"⟩]⟩, []⟩
  target := squaresTarget
  xText := "4"
  yText := "3"
  x := 4
  y := 3

end Inlining

/-- The tree of the text, with a node in the group. -/
def Xml.Document.squares (n : Node) : Xml.Document where
  root := ⟨⟨0, none, "svg", []⟩,
    [.element ⟨1, none, "defs", []⟩ [Inlining.squaresTarget.node], .element ⟨5, none, "g", []⟩ [n]]⟩
  beside := []

namespace Inlining

set_option maxRecDepth 20000 in
/-- The text is the document with the use. -/
lemma read_squares : Xml.Document.read Xml.squares = .ok (.squares squares.use.node) := rfl

/-- The use stands at the same position in every context. -/
lemma useLengths_squares (sizes : ReferenceSizes) :
    Stage.useLengths squares.use.tag sizes = .ok (4, 3, none, none) := by
  have hx : sizes.resolve .horizontal "4".toList = some 4 := by
    unfold ReferenceSizes.resolve ReferenceSizes.splitUnit ReferenceSizes.units
    simp only [List.findSome?_cons]
    rfl
  have hy : sizes.resolve .vertical "3".toList = some 3 := by
    unfold ReferenceSizes.resolve ReferenceSizes.splitUnit ReferenceSizes.units
    simp only [List.findSome?_cons]
    rfl
  have hx' : squares.use.tag.attribute? "x" = some "4" := rfl
  have hy' : squares.use.tag.attribute? "y" = some "3" := rfl
  have hwidth : squares.use.tag.attribute? "width" = none := rfl
  have hheight : squares.use.tag.attribute? "height" = none := rfl
  unfold Stage.useLengths Xml.Tag.length Xml.Tag.length?
  simp only [hx', hy', hwidth, hheight, hx, hy]
  rfl

set_option maxRecDepth 20000 in
/-- The use can be inlined. -/
lemma applies_squares : squares.Applies .initial (Xml.Document.squares squares.use.node).root := by
  refine ⟨rfl, ?_, ⟨⟨5, none, "g", []⟩, [⟨0, none, "svg", []⟩], ?_, Or.inr rfl, ?_⟩,
    ⟨"a", _, rfl, rfl⟩, ?_, rfl, rfl, fun _ _ _ _ _ => ⟨none, none, useLengths_squares _⟩⟩
  · intro tag htag
    cases List.mem_singleton.mp htag
    rfl
  · exact List.mem_of_getElem? (i := 6) rfl
  · intro tag htag
    rcases List.mem_cons.mp htag with rfl | htag
    · decide
    · cases List.mem_singleton.mp htag
      decide
  · decide

end Inlining

namespace Settings

variable (settings : Settings) {document document' : Xml.Document}

/-- A document that is translated has the right root element. -/
lemma root_name_of_translateTree {raised signal : Bool} {t : Translation}
    (h : settings.translateTree document raised = (.ok t, signal)) :
    document.root.name = "svg" := by
  by_contra hroot
  unfold translateTree at h
  simp [hroot] at h

/-- The commands of a translation are those that the document draws, if it draws at all. -/
lemma commands_eq {raised signal : Bool} {t : Translation}
    (hdraw : settings.definitionsOnly = false)
    (h : settings.translateTree document raised = (.ok t, signal)) :
    t.drawing.commands = (settings.drawing document.root).commands := by
  rw [settings.drawing_eq document hdraw h, Drawing.commands_append]
  rfl

/-- A document in which a use has been inlined has the commands of the original document, under
matrices that agree, if both are translated to their ends and neither reports a use that leads back
or is too deep.  They are if no font raises the abort signal. -/
theorem commands_inlining (i : Inlining) {text : String}
    (hread : Xml.Document.read text = .ok document) (happlies : i.Applies settings document.root)
    (hinlined : document'.root.node.unnumbered =
      (Xml.Node.replace i.use.tag.order i.node document.root.node).unnumbered) :
    (∀ raised raised' signal signal' t t',
      settings.translateTree document raised = (.ok t, signal) →
      settings.translateTree document' raised' = (.ok t', signal') →
      t.drawing.ReportsOwn → t'.drawing.ReportsOwn →
        List.Forall₂ DrawCommand.Agrees t.drawing.commands t'.drawing.commands) ∧
    (document.root.name = "svg" → (∀ q, settings.fonts.raisesAbort q = false) →
      ∃ t t', settings.translateTree document false = (.ok t, false) ∧
        settings.translateTree document' false = (.ok t', false)) := by
  have hnumbered := Xml.Document.numbered_of_read hread
  refine ⟨fun raised raised' signal signal' t t' ht ht' hown hown' => ?_, fun hsvg hquiet => ?_⟩
  · cases hdraw : settings.definitionsOnly with
    | true =>
      rw [settings.drawing_eq_of_definitionsOnly document hdraw ht,
        settings.drawing_eq_of_definitionsOnly document' hdraw ht']
      exact .nil
    | false =>
      have hdrawing := settings.drawing_eq document hdraw ht
      have hdrawing' := settings.drawing_eq document' hdraw ht'
      rw [hdrawing] at hown
      rw [hdrawing'] at hown'
      rw [hdrawing, hdrawing']
      refine Inlining.forall₂_commands happlies hnumbered
        (settings.root_name_of_translateTree ht) hinlined ?_ ?_
      · exact fun name id? err hmem => hown name id? err (List.mem_append_right _ hmem)
      · exact fun name id? err hmem => hown' name id? err (List.mem_append_right _ hmem)
  · obtain ⟨t, ht⟩ := settings.translateTree_ok document hsvg hquiet
    have hsvg' : document'.root.name = "svg" :=
      (congrArg (·.name) (Inlining.mirrors_root happlies hnumbered hsvg hinlined).1).trans hsvg
    obtain ⟨t', ht'⟩ := settings.translateTree_ok document' hsvg' hquiet
    exact ⟨t, t', ht, ht'⟩

/-- Two squares that are drawn through a use, and the same squares as a copy that is moved. -/
theorem commands_inlining_squares :
    Xml.Document.read Xml.squares = .ok (.squares Inlining.squares.use.node) ∧
    Inlining.squares.Applies initial (Xml.Document.squares Inlining.squares.use.node).root ∧
    (Xml.Document.squares Inlining.squares.node).root.node.unnumbered =
      (Xml.Node.replace Inlining.squares.use.tag.order Inlining.squares.node
        (Xml.Document.squares Inlining.squares.use.node).root.node).unnumbered ∧
    ∃ t t',
      initial.translateTree (.squares Inlining.squares.use.node) false = (.ok t, false) ∧
      initial.translateTree (.squares Inlining.squares.node) false = (.ok t', false) ∧
      t.drawing.commands.length = 2 ∧
        List.Forall₂ DrawCommand.Agrees t.drawing.commands t'.drawing.commands := by
  have hcommands :
      (initial.drawing (Xml.Document.squares Inlining.squares.use.node).root).commands.length =
        2 := by
    decide +kernel
  have hreports :
      (initial.drawing (Xml.Document.squares Inlining.squares.use.node).root).diagnostics = [] := by
    decide +kernel
  have hreports' :
      (initial.drawing (Xml.Document.squares Inlining.squares.node).root).diagnostics = [] := by
    decide +kernel
  have hown : ∀ (n : Xml.Node) (t : Translation) signal,
      (initial.drawing (Xml.Document.squares n).root).diagnostics = [] →
        initial.translateTree (.squares n) false = (.ok t, signal) → t.drawing.ReportsOwn := by
    intro n t signal hnone ht name id? err hmem
    rw [initial.drawing_eq _ rfl ht, Drawing.diagnostics_append, hnone, List.append_nil] at hmem
    exact Registry.isOwn_of_mem_collect hmem
  have hinlined : (Xml.Document.squares Inlining.squares.node).root.node.unnumbered =
      (Xml.Node.replace Inlining.squares.use.tag.order Inlining.squares.node
        (Xml.Document.squares Inlining.squares.use.node).root.node).unnumbered := rfl
  have happlies := Inlining.applies_squares
  obtain ⟨hagree, htranslated⟩ :=
    initial.commands_inlining Inlining.squares Inlining.read_squares happlies hinlined
  obtain ⟨t, t', ht, ht'⟩ := htranslated rfl fun _ => rfl
  refine ⟨Inlining.read_squares, happlies, hinlined, t, t', ht, ht', ?_,
    hagree _ _ _ _ _ _ ht ht' (hown _ _ _ hreports ht) (hown _ _ _ hreports' ht')⟩
  rw [initial.commands_eq rfl ht]
  exact hcommands

end Settings

end SvgDisplayList
