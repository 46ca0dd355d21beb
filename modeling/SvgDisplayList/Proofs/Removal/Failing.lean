import SvgDisplayList.Proofs.Removal.Walk
import SvgDisplayList.Proofs.Walk.Fault

/-!
# Elements that cannot be drawn

An element whose drawing ends in an error (`Stage.fault?`) draws no command and leaves the stacks of
the walk as they were, so the walk over the document and the walk over the document without the
element stay side by side, the latter standing still while the element is being drawn
(`Stage.Beside.advance_of_isDrawing`, `Stage.Beside.advance_of_not_isDrawing`).

So what is reported without the element is what is reported in the moments in which the element is
not being drawn (`Settings.exists_beside_walk`).
-/

namespace SvgDisplayList

/-! ## Moments -/

namespace Walk

variable {order : Nat}

/-- Whether the element of a place is being drawn: its drawing is about to begin, or the element is
on the path. -/
def isDrawing (order : Nat) (w : Walk) : Bool :=
  w.agenda.head?.any (Task.isAt order) || w.path.any fun tag => tag.order == order

/-- An element that is going to be left is being drawn. -/
lemma isDrawing_of_leave {w : Walk} {tag : Xml.Tag} {ancestors : List Xml.Tag}
    (h : .leave tag ancestors ∈ w.agenda) : w.isDrawing tag.order = true := by
  have hpath : tag ∈ w.path := List.mem_filterMap.mpr ⟨_, h, rfl⟩
  unfold isDrawing
  rw [Bool.or_eq_true, List.any_eq_true]
  exact Or.inr ⟨tag, hpath, beq_self_eq_true _⟩

/-- Where no task goes on with the element, it is being drawn if it is about to begin. -/
lemma isDrawing_eq_of_clear {w : Walk} (h : ∀ t ∈ w.agenda, t.Clear order) :
    w.isDrawing order = w.agenda.head?.any (Task.isAt order) := by
  have hpath : (w.path.any fun tag => tag.order == order) = false := by
    rw [List.any_eq_false]
    intro tag htag
    rw [beq_iff_eq]
    exact Task.order_ne_of_mem_path h htag
  unfold isDrawing
  rw [hpath, Bool.or_false]

end Walk

namespace Settings

variable (settings : Settings) (root : Xml.Element)

/-- What is reported in the step after a moment. -/
def reportsAt (moment : Nat) : List Diagnostic :=
  (settings.walk root (moment + 1)).drawn.diagnostics.drop
    (settings.walk root moment).drawn.diagnostics.length

/-- Whether every drawing of an element ends in an error: whenever the walk is about to begin with
the element, its drawing does. -/
def AlwaysFails (e : Xml.Element) : Prop :=
  ∀ moment ancestors style ts,
    (settings.walk root moment).agenda = .node e.node ancestors style :: ts →
      ∃ err, (settings.stage root).fault? e ancestors
        ((settings.walk root moment).place style) = some err

/-- A step draws over what has been drawn before. -/
lemma exists_drawn_walk_succ (moment : Nat) :
    ∃ d, (settings.walk root (moment + 1)).drawn = (settings.walk root moment).drawn ++ d := by
  have hsame : ∀ d : Drawing, ∃ d', d = d ++ d' := fun d => ⟨.empty, (Drawing.append_empty d).symm⟩
  rw [walk_succ]
  generalize settings.walk root moment = w
  obtain ⟨matrices, chain, drawn, agenda⟩ := w
  cases agenda with
  | nil => exact hsame _
  | cons t ts =>
    have hstep := (settings.stage root).step_perform ⟨matrices, chain, drawn, ts⟩ t
    change ∃ d, ((settings.stage root).perform ⟨matrices, chain, drawn, ts⟩ t).drawn = drawn ++ d
    generalize (settings.stage root).perform ⟨matrices, chain, drawn, ts⟩ t = w' at hstep
    cases hstep with
    | draw | enter | symbol | fault => exact ⟨_, rfl⟩
    | children | expand | leave | endUse => exact hsame _

/-- What is reported in a step stands behind what has been reported before. -/
lemma reportsAt_eq {moment : Nat} {d : Drawing}
    (h : (settings.walk root (moment + 1)).drawn = (settings.walk root moment).drawn ++ d) :
    settings.reportsAt root moment = d.diagnostics := by
  unfold reportsAt
  rw [h, Drawing.diagnostics_append, List.drop_left]

/-- What has been reported by a moment has been reported in the steps before it. -/
theorem diagnostics_walk (moment : Nat) :
    (settings.walk root moment).drawn.diagnostics =
      (List.range moment).flatMap (settings.reportsAt root) := by
  induction moment with
  | zero => rfl
  | succ moment ih =>
    obtain ⟨d, hd⟩ := settings.exists_drawn_walk_succ root moment
    rw [List.range_succ, List.flatMap_append, List.flatMap_singleton, ← ih,
      settings.reportsAt_eq root hd, hd]
    rfl

end Settings

/-! ## Two walks side by side -/

namespace Stage

/-- A state of the walk over a document in which an element cannot be drawn, beside a state of the
walk over the document without the element.  Either no task goes on with the element, or the element
has been entered, or it has nothing left but to be left.  -/
inductive Beside (stage : Stage) (e : Xml.Element) : Walk → Walk → Prop where
  | outside {w : Walk} {a : Drawing} (commands : a.commands = w.drawn.commands)
      (clear : ∀ t ∈ w.agenda, t.Clear e.tag.order) :
      Beside stage e w (w.without e.tag.order a)
  | entered {w : Walk} {a : Drawing} {own : Matrix} {ancestors : List Xml.Tag} {style : Style}
      {err : ElementError} (commands : a.commands = w.drawn.commands)
      (clear : ∀ t ∈ w.agenda, t.Clear e.tag.order)
      (fault : stage.contentFault? e ancestors ((w.push own).place style) = some err) :
      Beside stage e
        ((w.push own).plan [.content e ancestors style, .leave e.tag ancestors])
        (w.without e.tag.order a)
  | done {w : Walk} {a : Drawing} {own : Matrix} {ancestors : List Xml.Tag}
      (commands : a.commands = w.drawn.commands) (clear : ∀ t ∈ w.agenda, t.Clear e.tag.order) :
      Beside stage e ((w.push own).plan [.leave e.tag ancestors]) (w.without e.tag.order a)

namespace Beside

variable {stage stage' : Stage} {root e : Xml.Element} {above : List Xml.Tag} {w w' : Walk}

/-- Both walks have drawn the same commands. -/
lemma commands_eq (h : stage.Beside e w w') : w'.drawn.commands = w.drawn.commands := by
  cases h with
  | outside commands | entered commands | done commands => exact commands

/-- If there is nothing left to do in the one walk, there is nothing left to do in the other. -/
lemma agenda_eq_nil (h : stage.Beside e w w') (hagenda : w.agenda = []) : w'.agenda = [] := by
  cases h with
  | outside =>
    unfold Walk.without
    dsimp only
    rw [hagenda]
    rfl
  | entered | done => cases hagenda

/-- While the element is being drawn, the walk without it stands still. -/
theorem advance_of_isDrawing (h : stage.Beside e w w')
    (hfails : ∀ n ancestors style ts, w.agenda = .node n ancestors style :: ts →
      n.isAt e.tag.order = true →
        n = e.node ∧ ∃ err, stage.fault? e ancestors (w.place style) = some err)
    (hdrawing : w.isDrawing e.tag.order = true) :
    stage.Beside e (stage.advance w) w' := by
  cases h with
  | @outside w a commands clear =>
    rw [Walk.isDrawing_eq_of_clear clear] at hdrawing
    obtain ⟨matrices, chain, drawn, agenda⟩ := w
    cases agenda with
    | nil => cases hdrawing
    | cons t ts =>
      have hat : t.isAt e.tag.order = true := hdrawing
      obtain ⟨-, hclear⟩ := List.forall_mem_cons.mp clear
      cases t with
      | node n ancestors style =>
        obtain ⟨rfl, err, hfault⟩ := hfails n ancestors style ts rfl hat
        have hwithout : Walk.without e.tag.order a
            ⟨matrices, chain, drawn, .node e.node ancestors style :: ts⟩ =
              Walk.without e.tag.order a ⟨matrices, chain, drawn, ts⟩ := by
          unfold Walk.without
          dsimp only
          rw [Task.remaining_cons_of_isAt hat]
        have hcommands : ∀ ds, a.commands = (drawn ++ .reports ds).commands := by
          intro ds
          rw [Drawing.commands_append, Drawing.commands_reports, List.append_nil]
          exact commands
        change stage.Beside e
          (stage.perform ⟨matrices, chain, drawn, ts⟩ (.node e.node ancestors style)) _
        rw [hwithout]
        rcases perform_node_of_fault (w := ⟨matrices, chain, drawn, ts⟩) hfault with
          hperform | ⟨own, style', -, hperform, hcontent⟩
        · rw [hperform]
          exact .outside
            (w := (⟨matrices, chain, drawn, ts⟩ : Walk).draw
              (.reports (Stage.preliminary e.tag ++ [_])))
            (hcommands _) hclear
        · rw [hperform]
          exact .entered
            (w := (⟨matrices, chain, drawn, ts⟩ : Walk).draw (.reports (Stage.preliminary e.tag)))
            (hcommands _) hclear hcontent
      | content | symbol | leave | endUse => cases hat
  | @entered w a own ancestors style err commands clear fault =>
    change stage.Beside e (stage.perform ((w.push own).plan [.leave e.tag ancestors])
      (.content e ancestors style)) _
    have hcommands : a.commands = (w.drawn ++ .reports [Drawing.fault e.tag err]).commands := by
      rw [Drawing.commands_append, Drawing.commands_reports, List.append_nil]
      exact commands
    rw [perform_content_of_fault (w := (w.push own).plan [.leave e.tag ancestors]) fault]
    exact .done (w := w.draw (.reports [Drawing.fault e.tag err])) hcommands clear
  | done commands clear => exact .outside commands clear

/-- While the element is not being drawn, both walks draw and report the same. -/
theorem advance_of_not_isDrawing (h : stage.Beside e w w')
    (hremoves : Removes e.tag.order stage stage')
    (hloose : root.Loose e.tag.order)
    (hregistered : ∀ id x, stage.registry.element? id = some x → x.1.tag.order ≠ e.tag.order)
    (hlisted : ∀ c ancestors style ts, w.agenda = .content c ancestors style :: ts →
      (c, ancestors) ∈ root.node.elements [])
    (hdrawing : w.isDrawing e.tag.order = false) :
    ∃ d, (stage.advance w).drawn = w.drawn ++ d ∧
      (stage'.advance w').drawn = w'.drawn ++ d ∧
        stage.Beside e (stage.advance w) (stage'.advance w') := by
  cases h with
  | @outside w a commands clear =>
    rw [Walk.isDrawing_eq_of_clear clear] at hdrawing
    obtain ⟨matrices, chain, drawn, agenda⟩ := w
    cases agenda with
    | nil =>
      exact ⟨.empty, (Drawing.append_empty _).symm, (Drawing.append_empty _).symm,
        .outside commands clear⟩
    | cons t ts =>
      have hat : t.isAt e.tag.order = false := hdrawing
      obtain ⟨ht, hclear⟩ := List.forall_mem_cons.mp clear
      let rest : Walk := ⟨matrices, chain, drawn, ts⟩
      obtain ⟨d, hd, hwithout⟩ := perform_without hremoves hloose hregistered
        (fun c ancestors style heq => hlisted c ancestors style ts (by rw [heq])) ht hat rest
      have hadvance : stage'.advance
          (Walk.without e.tag.order a ⟨matrices, chain, drawn, t :: ts⟩) =
            (stage.perform rest t).without e.tag.order (a ++ d) := by
        rw [← hwithout a]
        unfold advance Walk.without
        dsimp only
        rw [Task.remaining_cons_of_not_isAt hat]
      have hcommands : (a ++ d).commands = (stage.perform rest t).drawn.commands := by
        rw [hd, Drawing.commands_append, Drawing.commands_append, commands]
      rw [hadvance]
      refine ⟨d, hd, rfl, .outside hcommands ?_⟩
      exact (stage.step_perform rest t).clear hregistered hat ht hclear
  | entered =>
    rw [Walk.isDrawing_of_leave (List.mem_cons_of_mem _ List.mem_cons_self)] at hdrawing
    cases hdrawing
  | done =>
    rw [Walk.isDrawing_of_leave List.mem_cons_self] at hdrawing
    cases hdrawing

end Beside

end Stage

/-! ## Documents -/

namespace Settings

variable {settings : Settings} {root e : Xml.Element} {above : List Xml.Tag}

/-- An element with the place of one without an identifier is not registered. -/
lemma order_ne_of_element? (hloose : root.Loose e.tag.order) {id : String}
    {x : Xml.Element × List Xml.Tag} (hx : (Registry.collect root).1.element? id = some x) :
    x.1.tag.order ≠ e.tag.order := by
  obtain ⟨hmem, hid⟩ := Registry.mem_elements_of_element? hx
  intro hat
  have hnone := hloose.nameless x hmem hat x (Xml.Node.self_mem_elements x.1 x.2)
  rw [hnone] at hid
  cases hid

/-- The stage of the document without the element. -/
lemma removes_stage (settings : Settings) (hloose : root.Loose e.tag.order) :
    Stage.Removes e.tag.order (settings.stage root)
      (settings.stage (root.without e.tag.order)) := by
  obtain ⟨hregistry, -⟩ := Registry.alike_without hloose
  have helement : ∀ id, (Registry.collect (root.without e.tag.order)).1.element? id =
      ((Registry.collect root).1.element? id).map fun x => (x.1.without e.tag.order, x.2) := by
    intro id
    have hrel := hregistry.rel_element? (fun _ _ hx => hx) id
    generalize (Registry.collect root).1.element? id = x? at hrel ⊢
    generalize (Registry.collect (root.without e.tag.order)).1.element? id = x'? at hrel ⊢
    cases hrel with
    | none => rfl
    | some hx => exact congrArg some hx
  refine ⟨⟨⟨hregistry.gradient?_eq, fun id => ?_⟩, rfl, rfl, rfl⟩, helement, rfl⟩
  change ((Registry.collect (root.without e.tag.order)).1.element? id).map _ = _
  rw [helement, Option.map_map]
  rfl

/-- At every moment of the walk over a document in which the drawing of an element always fails, the
walk over the document without the element has come to a state beside it, and has reported what has
been reported in the moments in which the element was not being drawn. -/
theorem exists_beside_walk (h : root.Detachable e above) (hnumbered : root.Numbered)
    (hsvg : root.name = "svg") (hfails : settings.AlwaysFails root e) (moment : Nat) :
    ∃ moment', (settings.stage root).Beside e (settings.walk root moment)
        (settings.walk (root.without e.tag.order) moment') ∧
      (settings.walk (root.without e.tag.order) moment').drawn.diagnostics =
        ((List.range moment).filter fun m =>
          !(settings.walk root m).isDrawing e.tag.order).flatMap (settings.reportsAt root) := by
  have hloose := h.loose hnumbered hsvg
  have hremoves := settings.removes_stage hloose
  induction moment with
  | zero =>
    refine ⟨0, ?_, rfl⟩
    rw [walk_zero, walk_zero]
    have hclear : ∀ t ∈ (Stage.start root (settings.rootPlace root)).agenda,
        t.Clear e.tag.order := by
      intro t ht
      rcases List.mem_append.mp ht with ht | ht
      · exact Task.clear_nodes t ht
      · obtain rfl := List.mem_singleton.mp ht
        exact hloose.notRoot
    have hstart : Stage.start (root.without e.tag.order)
        (settings.rootPlace (root.without e.tag.order)) =
          (Stage.start root (settings.rootPlace root)).without e.tag.order .empty := by
      unfold Stage.start Walk.without
      dsimp only
      rw [Task.remaining_append, Task.remaining_nodes, Task.remaining_cons_of_not_isAt rfl]
      rfl
    rw [hstart]
    exact .outside rfl hclear
  | succ moment ih =>
    obtain ⟨moment', hbeside, hdiagnostics⟩ := ih
    obtain ⟨spot, hagenda⟩ := settings.agenda_walk root moment
    rw [List.range_succ, List.filter_append, List.flatMap_append, walk_succ]
    cases hdrawing : (settings.walk root moment).isDrawing e.tag.order with
    | true =>
      rw [List.filter_cons_of_neg (by simp [hdrawing]), List.filter_nil, List.flatMap_nil,
        List.append_nil]
      refine ⟨moment', hbeside.advance_of_isDrawing ?_ hdrawing, hdiagnostics⟩
      intro n ancestors style ts hnext hat
      rw [hnext] at hagenda
      -- the node at the place is the element, as it is listed where it is about to begin
      have hnode : n = e.node := by
        cases n with
        | text s => cases hat
        | element tag children =>
          have hmem := (hagenda.tail rfl).1.1 (Xml.Node.self_mem_elements ⟨tag, children⟩ ancestors)
          have hsame := hnumbered.eq_of_order_eq hmem h.listed (by simpa [Xml.Node.isAt] using hat)
          rw [← (Prod.mk.inj hsame).1]
          rfl
      subst hnode
      exact ⟨rfl, hfails moment ancestors style ts hnext⟩
    | false =>
      obtain ⟨d, hd, hd', hnext⟩ := hbeside.advance_of_not_isDrawing hremoves hloose
        (fun id x hx => order_ne_of_element? hloose hx)
        (fun c ancestors style ts heq => by
          rw [heq] at hagenda
          exact (hagenda.tail rfl).1.1) hdrawing
      refine ⟨moment' + 1, ?_, ?_⟩
      · rw [walk_succ]
        exact hnext
      · rw [← walk_succ] at hd
        rw [walk_succ, hd', Drawing.diagnostics_append, hdiagnostics,
          List.filter_cons_of_pos (by simp [hdrawing]), List.filter_nil, List.flatMap_singleton,
          settings.reportsAt_eq root hd]

end Settings

end SvgDisplayList
