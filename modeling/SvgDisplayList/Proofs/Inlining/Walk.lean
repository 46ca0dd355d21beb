import SvgDisplayList.Proofs.Inlining.Registry
import SvgDisplayList.Proofs.Walk.Step

/-!
# Walks side by side

The walk over a document in which a use has been inlined follows the walk over the original
document.  Their stacks of matrices agree, they have drawn the same up to the sign of zeros in
matrices, and the tasks of their agendas mirror each other (`Inlining.MirrorsWalk`).  Every step of
the one walk is followed by one step of the other, but for the expansion of the use: it is followed
by three, which enter the inner group and come to the copy of the target
(`Inlining.MirrorsWalk.exists_leads`).

The chains of the two walks differ, and so do the ancestors of their elements.  All that they decide
is whether a use leads back or is too deep, and neither walk reports that of any use.
-/

namespace SvgDisplayList

/-- The same is drawn, under matrices that agree. -/
def DrawCommand.Agrees (c c' : DrawCommand) : Prop :=
  c'.drawable = c.drawable ∧ Matrix.Agrees c.matrix c'.matrix

namespace Inlining

/-! ## States side by side -/

/-- A stage on which a document is drawn in which a use has been inlined. -/
structure MirrorsStage (i : Inlining) (stage stage' : Stage) : Prop where
  registry : MirrorsRegistry i stage.registry stage'.registry
  fonts : stage'.fonts = stage.fonts
  width : stage'.viewportWidth = stage.viewportWidth
  height : stage'.viewportHeight = stage.viewportHeight

/-- A task that mirrors a task.  The use ends where its inner group is left. -/
inductive MirrorsTask (i : Inlining) : Task → Task → Prop where
  | node {n n' : Xml.Node} (ancestors ancestors' : List Xml.Tag) (style : Style)
      (mirrored : Mirrors i n n') :
      MirrorsTask i (.node n ancestors style) (.node n' ancestors' style)
  | content {e e' : Xml.Element} (ancestors ancestors' : List Xml.Tag) (style : Style)
      (mirrored : Mirrors i e.node e'.node) :
      MirrorsTask i (.content e ancestors style) (.content e' ancestors' style)
  | symbol {e e' : Xml.Element} (ancestors ancestors' : List Xml.Tag) (style : Style)
      (width height : Option Float32) (hname : e.name = "symbol")
      (mirrored : Mirrors i e.node e'.node) :
      MirrorsTask i (.symbol e ancestors style width height)
        (.symbol e' ancestors' style width height)
  | leave (tag tag' : Xml.Tag) (ancestors ancestors' : List Xml.Tag) :
      MirrorsTask i (.leave tag ancestors) (.leave tag' ancestors')
  | endUse (id id' : String) (target target' : Xml.Tag) :
      MirrorsTask i (.endUse id target) (.endUse id' target')
  | endInlined (id : String) (target tag : Xml.Tag) (ancestors : List Xml.Tag) :
      MirrorsTask i (.endUse id target) (.leave tag ancestors)

/-- A state of a walk that mirrors a state of a walk. -/
structure MirrorsWalk (i : Inlining) (w w' : Walk) : Prop where
  matrices : List.Forall₂ Matrix.Agrees w.matrices w'.matrices
  commands : List.Forall₂ DrawCommand.Agrees w.drawn.commands w'.drawn.commands
  agenda : List.Forall₂ (MirrorsTask i) w.agenda w'.agenda

namespace MirrorsWalk

variable {i : Inlining} {w w' : Walk}

/-- The matrices in force agree. -/
lemma matrix (h : MirrorsWalk i w w') : Matrix.Agrees w.matrix w'.matrix := by
  obtain ⟨hmatrices, -, -⟩ := h
  obtain ⟨ms, _, _, _⟩ := w
  obtain ⟨ms', _, _, _⟩ := w'
  cases hmatrices with
  | nil => exact .refl _
  | cons hm _ => exact hm

/-- Maps that agree are put before the matrices in force. -/
lemma push (h : MirrorsWalk i w w') {m m' : Matrix} (hm : Matrix.Agrees m m') :
    MirrorsWalk i (w.push m) (w'.push m') where
  matrices := .cons (h.matrix.mul hm) h.matrices
  commands := h.commands
  agenda := h.agenda

/-- The matrices in force are taken away. -/
lemma pop (h : MirrorsWalk i w w') : MirrorsWalk i w.pop w'.pop where
  matrices := by
    have htails := List.forall₂_drop 1 h.matrices
    rwa [List.drop_one, List.drop_one] at htails
  commands := h.commands
  agenda := h.agenda

/-- Drawings with commands that agree are added. -/
lemma draw (h : MirrorsWalk i w w') {d d' : Drawing}
    (hd : List.Forall₂ DrawCommand.Agrees d.commands d'.commands) :
    MirrorsWalk i (w.draw d) (w'.draw d') where
  matrices := h.matrices
  commands := List.rel_append h.commands hd
  agenda := h.agenda

/-- Drawings without commands are added. -/
lemma draw_of_commands_eq_nil (h : MirrorsWalk i w w') {d d' : Drawing} (hd : d.commands = [])
    (hd' : d'.commands = []) :
    MirrorsWalk i (w.draw d) (w'.draw d') := by
  refine h.draw ?_
  rw [hd, hd']
  exact .nil

/-- Tasks that mirror each other are planned. -/
lemma plan (h : MirrorsWalk i w w') {ts ts' : List Task}
    (hts : List.Forall₂ (MirrorsTask i) ts ts') :
    MirrorsWalk i (w.plan ts) (w'.plan ts') where
  matrices := h.matrices
  commands := h.commands
  agenda := List.rel_append hts h.agenda

end MirrorsWalk

/-! ## Elements side by side -/

variable {i : Inlining}

/-- What mirrors character data is that character data. -/
lemma Mirrors.eq_text {s : String} {n' : Xml.Node} (h : Mirrors i (.text s) n') : n' = .text s := by
  generalize hn : Xml.Node.text s = n at h
  cases h with
  | text =>
    cases hn
    rfl
  | element => cases hn
  | use => cases hn

/-- What mirrors an element is an element with the same plain tag and mirrored children, or the
element is the use and the outer group stands in its stead. -/
lemma Mirrors.cases_element {e : Xml.Element} {n' : Xml.Node} (h : Mirrors i e.node n') :
    (∃ tag' children', n' = .element tag' children' ∧ tag'.plain = e.tag.plain ∧
        List.Forall₂ (Mirrors i) e.children children' ∧
        (ElementKind.ofTag e.tag = .text →
          (Xml.Node.element tag' children').characters = e.characters) ∧
        (ElementKind.ofTag e.tag = .switch →
          children'.map Stage.isChoice = e.children.map Stage.isChoice)) ∨
      e = i.use ∧ n'.unnumbered = i.node.unnumbered := by
  obtain ⟨tag, children⟩ := e
  generalize hn : Xml.Element.node ⟨tag, children⟩ = n at h
  cases h with
  | text s => cases hn
  | element htags hmirrored hcharacters hchoices =>
    cases hn
    exact Or.inl ⟨_, _, rfl, htags, hmirrored, hcharacters, hchoices⟩
  | use hinlined =>
    refine Or.inr ⟨?_, hinlined⟩
    cases hn
    rfl

/-- What mirrors an element stands where the element stands, and is entered in the same way. -/
lemma Mirrors.exists_element (huse : ElementKind.ofTag i.use.tag = .use) {e : Xml.Element}
    {n' : Xml.Node} (h : Mirrors i e.node n') :
    ∃ e', n' = Xml.Element.node e' ∧ (Stage.aside? e'.tag).isSome = (Stage.aside? e.tag).isSome ∧
      (∀ stage s, Stage.entered? stage e'.tag s = Stage.entered? stage e.tag s) ∧
      (e'.name = "symbol" ↔ e.name = "symbol") := by
  rcases h.cases_element with ⟨tag', children', rfl, htag, -⟩ | ⟨rfl, hinlined⟩
  · have hkind : ElementKind.ofTag tag' = ElementKind.ofTag e.tag :=
      ElementKind.ofTag_eq_of_plain_eq htag
    have hname : tag'.name = e.tag.name := congrArg (·.name) htag
    refine ⟨⟨tag', children'⟩, rfl, Stage.aside?_isSome_congr hkind, fun stage s => ?_, ?_⟩
    · exact stage.entered?_eq_of_plain_eq htag s
    · exact Eq.congr_left hname
  · obtain ⟨tag', children', rfl, htag, -⟩ := Xml.Node.exists_of_unnumbered_eq hinlined
    have hname : tag'.name = "g" := congrArg (·.name) htag
    have hkind := ofTag_eq_group huse hname (congrArg (·.space?) htag)
    refine ⟨⟨tag', children'⟩, rfl, ?_, entered?_outer htag, ?_⟩
    · unfold Stage.aside?
      rw [hkind, huse]
    · have hname' : i.use.name = "use" := ElementKind.name_eq_of_use huse
      change tag'.name = "symbol" ↔ _
      rw [hname, hname']
      decide

/-- Stages side by side have the same sizes. -/
lemma MirrorsStage.sizes_eq {stage stage' : Stage} (h : MirrorsStage i stage stage') :
    stage'.sizes = stage.sizes := by
  unfold Stage.sizes
  rw [h.width, h.height]

/-- Stages side by side have elements entered alike. -/
lemma MirrorsStage.entered?_eq {stage stage' : Stage} (h : MirrorsStage i stage stage') :
    stage'.entered? = stage.entered? := by
  unfold Stage.entered?
  rw [h.sizes_eq]

namespace MirrorsWalk

variable {stage stage' : Stage} {w w' : Walk}

/-- An element and its mirror image are entered. -/
lemma enterWalk (h : MirrorsWalk i w w') {tag tag' : Xml.Tag} {style : Style}
    {tasks tasks' : Style → Matrix → Walk → Walk}
    (hentered : stage'.entered? tag' style = stage.entered? tag style)
    (htasks : ∀ style own w w', MirrorsWalk i w w' →
      MirrorsWalk i (tasks style own w) (tasks' style own w')) :
    MirrorsWalk i (stage.enterWalk w tag style tasks) (stage'.enterWalk w' tag' style tasks') := by
  unfold Stage.enterWalk
  rw [hentered]
  have hdrawn := h.draw_of_commands_eq_nil (Drawing.commands_reports (Stage.entryReports tag))
    (Drawing.commands_reports (Stage.entryReports tag'))
  cases stage.entered? tag style with
  | none => exact hdrawn
  | some entered => exact htasks _ _ _ _ hdrawn

/-- Children that mirror each other are drawn as tasks that mirror each other. -/
lemma forall₂_nodes {ns ns' : List Xml.Node} (h : List.Forall₂ (Mirrors i) ns ns')
    (ancestors ancestors' : List Xml.Tag) (style : Style) :
    List.Forall₂ (MirrorsTask i) (Task.nodes ns ancestors style)
      (Task.nodes ns' ancestors' style) := by
  unfold Task.nodes
  rw [List.forall₂_map_left_iff, List.forall₂_map_right_iff]
  exact h.imp fun _ _ hn => .node _ _ _ hn

/-- The first choices among children that mirror each other. -/
lemma forall₂_find? {ns ns' : List Xml.Node} (h : List.Forall₂ (Mirrors i) ns ns')
    (hchoices : ns'.map Stage.isChoice = ns.map Stage.isChoice) :
    List.Forall₂ (Mirrors i) (ns.find? Stage.isChoice).toList
      (ns'.find? Stage.isChoice).toList := by
  induction h with
  | nil => exact .nil
  | @cons n n' _ _ hn _ ih =>
    obtain ⟨hhead, htail⟩ := List.cons.inj hchoices
    rw [List.find?_cons, List.find?_cons, hhead]
    cases Stage.isChoice n with
    | true => exact .cons hn .nil
    | false => exact ih htail

/-- A node and its mirror image are drawn. -/
lemma perform_node (h : MirrorsWalk i w w') (huse : ElementKind.ofTag i.use.tag = .use)
    (hstage : MirrorsStage i stage stage') {n n' : Xml.Node} (hn : Mirrors i n n')
    (ancestors ancestors' : List Xml.Tag) (style : Style) :
    MirrorsWalk i (stage.perform w (.node n ancestors style))
      (stage'.perform w' (.node n' ancestors' style)) := by
  cases n with
  | text s =>
    rw [hn.eq_text]
    exact h
  | element tag children =>
    obtain ⟨⟨tag', children'⟩, rfl, haside, hentered, -⟩ :=
      Mirrors.exists_element huse (e := ⟨tag, children⟩) hn
    simp only [Xml.Element.node, Stage.perform]
    cases hd : Stage.aside? tag with
    | some d =>
      rw [hd] at haside
      obtain ⟨d', hd'⟩ := Option.isSome_iff_exists.mp haside
      simp only [hd']
      exact h.draw_of_commands_eq_nil (Stage.commands_eq_nil_of_aside? hd)
        (Stage.commands_eq_nil_of_aside? hd')
    | none =>
      rw [hd] at haside
      simp only [Option.not_isSome_iff_eq_none.mp (Bool.eq_false_iff.mp haside)]
      refine h.enterWalk ((hentered stage' style).trans (by rw [hstage.entered?_eq]))
        fun style own w w' h => ?_
      exact (h.push (.refl own)).plan (.cons (.content _ _ _ hn) (.cons (.leave _ _ _ _) .nil))

/-- The symbol of a use and its mirror image are drawn. -/
lemma perform_symbol (h : MirrorsWalk i w w') (huse : ElementKind.ofTag i.use.tag = .use)
    (hstage : MirrorsStage i stage stage') {e e' : Xml.Element} (hname : e.name = "symbol")
    (he : Mirrors i e.node e'.node) (ancestors ancestors' : List Xml.Tag) (style : Style)
    (width height : Option Float32) :
    MirrorsWalk i (stage.perform w (.symbol e ancestors style width height))
      (stage'.perform w' (.symbol e' ancestors' style width height)) := by
  rcases he.cases_element with ⟨tag', children', heq, htag, hchildren, -⟩ | ⟨rfl, -⟩
  · obtain ⟨tag, children⟩ := e
    obtain rfl : e' = ⟨tag', children'⟩ := Xml.Element.node_injective heq
    have hentered : stage'.entered? tag' style = stage.entered? tag style := by
      rw [stage'.entered?_eq_of_plain_eq htag, hstage.entered?_eq]
    have hfit : Stage.symbolFit tag' width height = Stage.symbolFit tag width height :=
      Stage.symbolFit_congr (.of_plain_eq htag) width height
    simp only [Stage.perform]
    refine h.enterWalk hentered fun style own w w' h => ?_
    rw [hfit]
    exact (h.push (.refl _)).plan
      (List.rel_append (forall₂_nodes hchildren _ _ _) (.cons (.leave _ _ _ _) .nil))
  · have hname' := ElementKind.name_eq_of_use huse
    rw [Xml.Element.name, hname'] at hname
    exact absurd hname (by decide)

/-- The drawables of elements that mirror each other are added. -/
lemma draw_drawn (h : MirrorsWalk i w w') {d d' : Drawing} {e e' : Xml.Element} {style : Style}
    (hdrawn : stage'.drawn? e' style = stage.drawn? e style)
    (hd : d.commands = (stage.drawn? e style).toList.map (⟨·, w.matrix⟩))
    (hd' : d'.commands = (stage'.drawn? e' style).toList.map (⟨·, w'.matrix⟩)) :
    MirrorsWalk i (w.draw d) (w'.draw d') := by
  refine h.draw ?_
  rw [hd, hd', hdrawn]
  cases stage.drawn? e style with
  | none => exact .nil
  | some drawable => exact .cons ⟨rfl, h.matrix⟩ .nil

end MirrorsWalk

/-! ## Uses side by side -/

section Expansion

variable {stage stage' : Stage} {tag tag' : Xml.Tag} {ancestors : List Xml.Tag} {style : Style}
    {chain : List String}

/-- A use with a fault of its own has a fault wherever it stands. -/
lemma exists_expansion_error (hstage : MirrorsStage i stage stage') (htag : tag'.plain = tag.plain)
    {err : ElementError} (hx : stage.expansion tag ancestors style chain = .error err)
    (hown : err.IsOwn) (ancestors' : List Xml.Tag) (chain' : List String) :
    ∃ err', stage'.expansion tag' ancestors' style chain' = .error err' := by
  have hcontent : Xml.Tag.SameContent tag tag' := .of_plain_eq htag
  have hreference := hcontent.reference?_eq
  have hlengths : Stage.useLengths tag' (stage'.sizes style.fontSize) =
      Stage.useLengths tag (stage.sizes style.fontSize) := by
    rw [Stage.useLengths_congr hcontent, hstage.sizes_eq]
  cases hx' : stage'.expansion tag' ancestors' style chain' with
  | error err' => exact ⟨err', rfl⟩
  | ok x' =>
    -- what the one use refers to, the other one finds as well
    obtain ⟨hid, htarget, -, -, hx'⟩ := Stage.expansion_eq_ok_iff.mp hx'
    rw [hreference] at hid
    rw [hlengths] at hx'
    rcases htarget₀ : stage.registry.element? x'.id with _ | ⟨target, above⟩
    · rw [hstage.registry.none _ htarget₀] at htarget
      cases htarget
    · unfold Stage.expansion at hx
      simp only [hid, htarget₀, hx'] at hx
      split_ifs at hx
      · cases hx
        exact hown.elim
      · cases hx
        exact hown.elim
      · cases hx

/-- A use that is expanded is expanded alike wherever it stands, unless it leads back or is too deep
there. -/
lemma exists_expansion_ok (hstage : MirrorsStage i stage stage') (htag : tag'.plain = tag.plain)
    {x : Stage.Expansion} (hx : stage.expansion tag ancestors style chain = .ok x)
    (ancestors' : List Xml.Tag) (chain' : List String)
    (hown : ∀ err, stage'.expansion tag' ancestors' style chain' = .error err → err.IsOwn) :
    ∃ target above, stage'.expansion tag' ancestors' style chain' =
      .ok { x with target, ancestors := above } ∧ Mirrors i x.target.node target.node := by
  obtain ⟨hid, htarget, -, -, hlengths⟩ := Stage.expansion_eq_ok_iff.mp hx
  obtain ⟨target, above, htarget', hmirrored⟩ := hstage.registry.some _ _ _ htarget
  refine ⟨target, above, ?_, hmirrored⟩
  have hcontent : Xml.Tag.SameContent tag tag' := .of_plain_eq htag
  rw [← Stage.useLengths_congr hcontent, ← hstage.sizes_eq] at hlengths
  rw [← hcontent.reference?_eq] at hid
  unfold Stage.expansion at hown ⊢
  simp only [hid, htarget', hlengths] at hown ⊢
  split_ifs at hown ⊢
  · exact (hown _ rfl).elim
  · exact (hown _ rfl).elim
  · rfl

/-- The targets of uses that mirror each other are drawn as tasks that mirror each other. -/
lemma mirrorsTask_target (huse : ElementKind.ofTag i.use.tag = .use) {x : Stage.Expansion}
    {target : Xml.Element} (h : Mirrors i x.target.node target.node) (above : List Xml.Tag) :
    MirrorsTask i (x.task style)
      (Stage.Expansion.task { x with target, ancestors := above } style) := by
  obtain ⟨target', heq, -, -, hname⟩ := h.exists_element huse
  obtain rfl := Xml.Element.node_injective heq
  unfold Stage.Expansion.task
  by_cases hsymbol : x.target.name = "symbol"
  · rw [if_pos hsymbol, if_pos (hname.mpr hsymbol)]
    exact .symbol _ _ _ _ _ hsymbol h
  · rw [if_neg hsymbol, if_neg (mt hname.mp hsymbol)]
    exact .node _ _ _ h

end Expansion

namespace MirrorsWalk

variable {stage stage' : Stage} {w w' : Walk}

/-- If all reports are elements' own, so is the last one. -/
lemma isOwn_of_draw {tag : Xml.Tag} {err : ElementError}
    (h : (w.draw (.reports [Drawing.fault tag err])).drawn.ReportsOwn) : err.IsOwn :=
  h tag.name (tag.attribute? "id") err (List.mem_append_right _ List.mem_cons_self)

/-- A use and its mirror image are both expanded, or both have faults. -/
lemma perform_use (h : MirrorsWalk i w w') (huse : ElementKind.ofTag i.use.tag = .use)
    (hstage : MirrorsStage i stage stage') {e e' : Xml.Element} (htag : e'.tag.plain = e.tag.plain)
    (hkind : ElementKind.ofTag e.tag = .use) {ancestors ancestors' : List Xml.Tag} {style : Style}
    (hown : (stage.perform w (.content e ancestors style)).drawn.ReportsOwn)
    (hown' : (stage'.perform w' (.content e' ancestors' style)).drawn.ReportsOwn) :
    MirrorsWalk i (stage.perform w (.content e ancestors style))
      (stage'.perform w' (.content e' ancestors' style)) := by
  have hkind' : ElementKind.ofTag e'.tag = .use :=
    (ElementKind.ofTag_eq_of_plain_eq htag).trans hkind
  simp only [Stage.perform, hkind, hkind'] at hown hown' ⊢
  cases hx : stage.expansion e.tag ancestors style w.chain with
  | error err =>
    rw [hx] at hown
    obtain ⟨err', hx'⟩ :=
      exists_expansion_error hstage htag hx (isOwn_of_draw hown) ancestors' w'.chain
    rw [hx']
    exact h.draw_of_commands_eq_nil rfl rfl
  | ok x =>
    have hfaults : ∀ err, stage'.expansion e'.tag ancestors' style w'.chain = .error err →
        err.IsOwn := by
      intro err herr
      rw [herr] at hown'
      exact isOwn_of_draw hown'
    obtain ⟨target, above, hx', hmirrored⟩ :=
      exists_expansion_ok hstage htag hx ancestors' w'.chain hfaults
    rw [hx']
    have hexpanded : MirrorsWalk i { w with chain := x.id :: w.chain }
        { w' with chain := x.id :: w'.chain } := ⟨h.matrices, h.commands, h.agenda⟩
    exact (hexpanded.push (.refl _)).plan
      (.cons (mirrorsTask_target huse hmirrored above) (.cons (.endUse _ _ _ _) .nil))

/-- The content of an element and of its mirror image is drawn. -/
lemma perform_content (h : MirrorsWalk i w w') (huse : ElementKind.ofTag i.use.tag = .use)
    (hstage : MirrorsStage i stage stage') {e e' : Xml.Element} (htag : e'.tag.plain = e.tag.plain)
    (hchildren : List.Forall₂ (Mirrors i) e.children e'.children)
    (hcharacters : ElementKind.ofTag e.tag = .text → e'.characters = e.characters)
    (hchoices : ElementKind.ofTag e.tag = .switch →
      e'.children.map Stage.isChoice = e.children.map Stage.isChoice)
    {ancestors ancestors' : List Xml.Tag} {style : Style}
    (hown : (stage.perform w (.content e ancestors style)).drawn.ReportsOwn)
    (hown' : (stage'.perform w' (.content e' ancestors' style)).drawn.ReportsOwn) :
    MirrorsWalk i (stage.perform w (.content e ancestors style))
      (stage'.perform w' (.content e' ancestors' style)) := by
  have hkind : ElementKind.ofTag e'.tag = ElementKind.ofTag e.tag :=
    ElementKind.ofTag_eq_of_plain_eq htag
  have hdrawn : stage'.drawn? e' style = stage.drawn? e style := by
    unfold Stage.drawn?
    rw [hstage.fonts, hstage.width, hstage.height]
    exact Stage.drawable?_congr hstage.registry.gradient (.of_plain_eq htag) hcharacters _ _ _ _
  cases hk : ElementKind.ofTag e.tag with
  | use => exact h.perform_use huse hstage htag hk hown hown'
  | group =>
    simp only [Stage.perform, hkind, hk]
    exact h.plan (forall₂_nodes hchildren _ _ _)
  | switch =>
    simp only [Stage.perform, hkind, hk]
    exact h.plan (forall₂_nodes (forall₂_find? hchildren (hchoices hk)) _ _ _)
  | shape s =>
    simp only [Stage.perform, hkind, hk]
    exact h.draw_drawn hdrawn (stage.commands_shape s e (w.place style) hk)
      (stage'.commands_shape s e' (w'.place style) (hkind.trans hk))
  | text =>
    simp only [Stage.perform, hkind, hk]
    exact h.draw_drawn hdrawn (stage.commands_text e (w.place style) hk)
      (stage'.commands_text e' (w'.place style) (hkind.trans hk))
  | image =>
    simp only [Stage.perform, hkind, hk]
    exact h.draw_drawn hdrawn (stage.commands_image e (w.place style) hk)
      (stage'.commands_image e' (w'.place style) (hkind.trans hk))
  | definition | unsupported | ignored | unknown =>
    simp only [Stage.perform, hkind, hk]
    exact h

/-- The outer group in the stead of the use leads to the copy of the target in three steps: its
content is the inner group, which is entered, and whose content is the copy. -/
lemma leads_copy {outer inner : Xml.Tag} {copy : Xml.Node}
    (houter : ElementKind.ofTag outer = .group) (hinner : ElementKind.ofTag inner = .group)
    {ancestors : List Xml.Tag} {style : Style} {m : Matrix}
    (hentered : stage.entered? inner style = some (style, m)) :
    stage.Leads (w.plan [.content ⟨outer, [.element inner [copy]]⟩ ancestors style])
      (((w.draw (.reports (Stage.entryReports inner))).push m).plan
        [.node copy (inner :: outer :: ancestors) style, .leave inner (outer :: ancestors)]) := by
  have haside : Stage.aside? inner = none := by
    unfold Stage.aside?
    rw [hinner]
  let entered := (w.draw (.reports (Stage.entryReports inner))).push m
  have hcontent := stage.leads_perform w (.content ⟨outer, [.element inner [copy]]⟩ ancestors style)
  have hnode := stage.leads_perform w (.node (.element inner [copy]) (outer :: ancestors) style)
  have hcopy := stage.leads_perform (entered.plan [.leave inner (outer :: ancestors)])
    (.content ⟨inner, [copy]⟩ (outer :: ancestors) style)
  simp only [Stage.perform, houter] at hcontent
  simp only [Stage.perform, haside, Stage.enterWalk, hentered] at hnode
  simp only [Stage.perform, hinner] at hcopy
  exact hcontent.trans (hnode.trans hcopy)

/-- The use is expanded if its lengths can be read and no use is refused for how it is nested. -/
lemma expansion_use (huse : ElementKind.ofTag i.use.tag = .use) {id : String} {above : List Xml.Tag}
    (hreference : i.use.tag.reference? = some id)
    (htarget : stage.registry.element? id = some (i.target, above)) {style : Style}
    {width height : Option Float32}
    (hlengths : Stage.useLengths i.use.tag (stage.sizes style.fontSize) =
      .ok (i.x, i.y, width, height)) {ancestors : List Xml.Tag}
    (hown : (stage.perform w (.content i.use ancestors style)).drawn.ReportsOwn) :
    stage.expansion i.use.tag ancestors style w.chain =
      .ok ⟨id, i.target, above, i.x, i.y, width, height⟩ := by
  simp only [Stage.perform, huse] at hown
  unfold Stage.expansion at hown ⊢
  simp only [hreference, htarget, hlengths] at hown ⊢
  split_ifs at hown ⊢
  · exact (isOwn_of_draw hown).elim
  · exact (isOwn_of_draw hown).elim
  · rfl

/-- The use is expanded, and three steps later the groups in its stead have come to the copy of the
target. -/
lemma exists_leads (h : MirrorsWalk i w w') (huse : ElementKind.ofTag i.use.tag = .use)
    (hsymbol : i.target.name ≠ "symbol") (hx : finiteNumber? i.xText.toList = some i.x)
    (hy : finiteNumber? i.yText.toList = some i.y) {id : String} {above : List Xml.Tag}
    (hreference : i.use.tag.reference? = some id)
    (htarget : stage.registry.element? id = some (i.target, above)) {style : Style}
    {width height : Option Float32}
    (hlengths : Stage.useLengths i.use.tag (stage.sizes style.fontSize) =
      .ok (i.x, i.y, width, height)) {ancestors ancestors' : List Xml.Tag} {e' : Xml.Element}
    (he' : e'.node.unnumbered = i.node.unnumbered)
    (hown : (stage.perform w (.content i.use ancestors style)).drawn.ReportsOwn) :
    ∃ w'', stage'.Leads (w'.plan [.content e' ancestors' style]) w'' ∧
      MirrorsWalk i (stage.perform w (.content i.use ancestors style)) w'' := by
  have hexpansion := expansion_use huse hreference htarget hlengths hown
  obtain ⟨outer, inner, copy, heq, houter, hinner, hcopy⟩ := exists_groups he'
  obtain rfl : e' = ⟨outer, [.element inner [copy]]⟩ := Xml.Element.node_injective heq
  have hkind : ElementKind.ofTag outer = .group :=
    ofTag_eq_group huse (congrArg (·.name) houter) (congrArg (·.space?) houter)
  have hkind' : ElementKind.ofTag inner = .group :=
    ofTag_eq_group huse (congrArg (·.name) hinner) (congrArg (·.space?) hinner)
  refine ⟨_, leads_copy hkind hkind' (entered?_inner hinner hx hy stage' style), ?_⟩
  have hdrawn : MirrorsWalk i { w with chain := id :: w.chain }
      (w'.draw (.reports (Stage.entryReports inner))) := by
    have hdrawn := h.draw_of_commands_eq_nil Drawing.commands_empty
      (Drawing.commands_reports (Stage.entryReports inner))
    rw [Walk.draw_empty] at hdrawn
    exact ⟨hdrawn.matrices, hdrawn.commands, hdrawn.agenda⟩
  have hmoved :=
    Matrix.Agrees.identity_mul_translate (finiteNumber?_spec hx).2.2 (finiteNumber?_spec hy).2.2
  simp only [Stage.perform, huse, hexpansion, Stage.Expansion.task, if_neg hsymbol]
  exact (hdrawn.push hmoved.symm).plan
    (.cons (.node _ _ _ (.of_copy hcopy)) (.cons (.endInlined _ _ _ _) .nil))

end MirrorsWalk

end Inlining

end SvgDisplayList
