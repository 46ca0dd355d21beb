import SvgDisplayList.Proofs.Walk.Document
import SvgDisplayList.Proofs.Xml.Tree

/-!
# Raising the limit of nesting

A drawing is whole if it does not report that uses nest too deep.  With a higher limit a drawing
that is whole stays what it is (`Drawing.Deepens`).  The limit is looked at in one place: a use
whose reference leads on and does not lead back is drawn if a level is left, and reports the limit
otherwise.  So the statement goes through the tree of a node once it holds for what its uses do
(`Stage.deepens_node`), and it holds for what uses do by induction on the levels that are left
(`Stage.extends_reuse`).

A drawing that is not whole need not stay what it is in other places: a use that is drawn at last
may report a cycle further on.
-/

namespace SvgDisplayList

/-- Whether a diagnostic reports that uses nest too deep. -/
def Diagnostic.isTooDeep : Diagnostic → Bool
  | .element _ _ (.reuseTooDeep _) => true
  | _ => false

namespace Drawing

/-- Nothing is left out because uses nest too deep. -/
def IsWhole (d : Drawing) : Prop := ∀ x ∈ d.diagnostics, x.isTooDeep = false

instance (d : Drawing) : Decidable d.IsWhole := inferInstanceAs (Decidable (∀ x ∈ _, _))

/-- The second drawing is the first one, if that is whole. -/
def Deepens (d d' : Drawing) : Prop := d.IsWhole → d' = d

/-- One drawing over another is whole if both are. -/
@[simp] lemma isWhole_append (a b : Drawing) : (a ++ b).IsWhole ↔ a.IsWhole ∧ b.IsWhole :=
  List.forall_mem_append

namespace Deepens

variable {a a' b b' : Drawing}

/-- A drawing stays what it is. -/
lemma refl (d : Drawing) : d.Deepens d := fun _ => rfl

/-- One drawing over another stays what it is if both do. -/
lemma append (h : a.Deepens a') (h' : b.Deepens b') : (a ++ b).Deepens (a' ++ b') := by
  intro hwhole
  obtain ⟨hwhole, hwhole'⟩ := (isWhole_append a b).mp hwhole
  rw [h hwhole, h' hwhole']

end Deepens

end Drawing

namespace Stage

open Drawing

/-- The stage with another limit of nesting. -/
def withLimit (stage : Stage) (limit : Nat) : Stage := { stage with reuseLimit := limit }

/-- The limit of nesting says nothing about what is entered. -/
lemma entered?_withLimit (stage : Stage) (limit : Nat) (tag : Xml.Tag) (style : Style) :
    (stage.withLimit limit).entered? tag style = stage.entered? tag style := rfl

/-- Where the one says what a use does, so does the other, and the drawings that it makes stay what
they are. -/
def Extends (reuse? reuse?' : Option Reuse) : Prop :=
  ∀ reuse, reuse? = some reuse → ∃ reuse', reuse?' = some reuse' ∧
    ∀ target ancestors place width height,
      (reuse target ancestors place width height).Deepens
        (reuse' target ancestors place width height)

variable {stage : Stage} {reuse? reuse?' : Option Reuse} {limit : Nat}

/-- What a use draws stays what it is, unless it reports the limit. -/
lemma deepens_use (h : Extends reuse? reuse?') (tag : Xml.Tag) (ancestors : List Xml.Tag)
    (place : Place) :
    (orFault tag (stage.use reuse? tag ancestors place)).Deepens
      (orFault tag ((stage.withLimit limit).use reuse?' tag ancestors place)) := by
  unfold use
  cases tag.reference? with
  | none => exact .refl _
  | some id =>
    dsimp only [withLimit]
    cases stage.registry.element? id with
    | none => exact .refl _
    | some target =>
      dsimp only
      split_ifs
      · exact .refl _
      · cases reuse? with
        | none =>
          -- the limit is reported here, and nowhere else
          intro hwhole
          cases hwhole _ List.mem_cons_self
        | some reuse =>
          obtain ⟨reuse', rfl, hreuse⟩ := h reuse rfl
          -- the lengths of the use are read alike
          dsimp only [sizes]
          cases tag.length "x" .horizontal _ with
          | error e => exact .refl _
          | ok x =>
            cases tag.length "y" .vertical _ with
            | error e => exact .refl _
            | ok y =>
              cases tag.length? "width" .horizontal _ with
              | error e => exact .refl _
              | ok width =>
                cases tag.length? "height" .vertical _ with
                | error e => exact .refl _
                | ok height => exact hreuse _ _ _ _ _

/-- What nodes draw stays what it is if what each of them draws does. -/
lemma deepens_nodes {ns : List Xml.Node}
    (hns : ∀ n ∈ ns, ∀ ancestors place, (stage.node reuse? n ancestors place).Deepens
      ((stage.withLimit limit).node reuse?' n ancestors place))
    (ancestors : List Xml.Tag) (place : Place) :
    (stage.nodes reuse? ns ancestors place).Deepens
      ((stage.withLimit limit).nodes reuse?' ns ancestors place) := by
  induction ns with
  | nil =>
    rw [nodes, nodes]
    exact .refl _
  | cons n ns ih =>
    obtain ⟨hn, hns⟩ := List.forall_mem_cons.mp hns
    rw [nodes_cons, nodes_cons]
    exact (hn ancestors place).append (ih hns)

/-- What an element draws that is entered stays what it is. -/
lemma deepens_entered {draw draw' : Style → Matrix → Drawing}
    (h : ∀ style m, (draw style m).Deepens (draw' style m)) (tag : Xml.Tag) (place : Place) :
    (stage.enter tag place draw).Deepens ((stage.withLimit limit).enter tag place draw') := by
  rw [enter_eq, enter_eq, entered?_withLimit]
  refine .append (.refl _) ?_
  cases stage.entered? tag place.style with
  | none => exact .refl _
  | some entered => exact h entered.1 entered.2

/-- What a node draws stays what it is, if what uses do is extended. -/
theorem deepens_node (h : Extends reuse? reuse?') (n : Xml.Node) (ancestors : List Xml.Tag)
    (place : Place) :
    (stage.node reuse? n ancestors place).Deepens
      ((stage.withLimit limit).node reuse?' n ancestors place) := by
  induction n using Xml.Node.induction generalizing ancestors place with
  | text s =>
    rw [node, node]
    exact .refl _
  | element tag children hchildren =>
    rw [node_element, node_element, entered?_withLimit]
    cases aside? tag with
    | some d => exact .refl d
    | none =>
      refine .append (.refl _) ?_
      cases stage.entered? tag place.style with
      | none => exact .refl _
      | some entered =>
        unfold content
        dsimp only
        cases ElementKind.ofTag tag with
        | group => exact deepens_nodes hchildren _ _
        | switch =>
          dsimp only
          rw [firstNode_eq, firstNode_eq]
          cases hfind : children.find? isChoice with
          | none => exact .refl _
          | some c => exact hchildren c (List.mem_of_find?_eq_some hfind) _ _
        | use => exact deepens_use h tag ancestors _
        | _ => exact .refl _

/-- With more levels left, and with another limit to report, what uses do is extended. -/
theorem extends_reuse (stage : Stage) (limit : Nat) {depth depth' : Nat} (hle : depth ≤ depth') :
    Extends (stage.reuse depth) ((stage.withLimit limit).reuse depth') := by
  induction depth generalizing depth' with
  | zero =>
    intro reuse hreuse
    cases hreuse
  | succ depth ih =>
    obtain ⟨deeper, rfl⟩ : ∃ deeper, depth' = deeper + 1 := ⟨depth' - 1, by omega⟩
    have hdeeper := ih (Nat.le_of_succ_le_succ hle)
    intro reuse hreuse
    cases hreuse
    refine ⟨_, rfl, fun target ancestors place width height => ?_⟩
    dsimp only
    split_ifs with hsymbol
    · exact deepens_entered
        (fun style m => deepens_nodes (fun n _ => deepens_node hdeeper n) _ _) _ _
    · exact deepens_node hdeeper _ _ _

/-- A whole drawing that nobody has aborted stays what it is, and the abort signal is left alike. -/
lemma drawUnlessAborted_withLimit (hle : stage.reuseLimit ≤ limit) {ancestors : List Xml.Tag}
    {place : Place} {ns : List Xml.Node} {raised signal : Bool} {d : Drawing}
    (hdraw : stage.drawUnlessAborted ancestors place ns raised = (some d, signal))
    (hwhole : d.IsWhole) :
    (stage.withLimit limit).drawUnlessAborted ancestors place ns raised = (some d, signal) := by
  induction ns generalizing raised d with
  | nil => exact hdraw
  | cons n ns ih =>
    cases n with
    | text s => exact ih hdraw hwhole
    | element tag children =>
      rw [drawUnlessAborted] at hdraw ⊢
      split_ifs at hdraw ⊢
      · cases (Prod.mk.inj hdraw).1
      obtain ⟨rest, hrest, rfl⟩ := Option.map_eq_some_iff.mp (Prod.mk.inj hdraw).1
      obtain ⟨hfirst, hbehind⟩ := (isWhole_append _ rest).mp hwhole
      have hsame : (stage.withLimit limit).draw (.element tag children) ancestors place =
          stage.draw (.element tag children) ancestors place :=
        deepens_node (stage.extends_reuse limit hle) _ ancestors place hfirst
      have hns := ih (Prod.ext hrest (Prod.mk.inj hdraw).2) hbehind
      have hfonts : (stage.withLimit limit).fonts = stage.fonts := rfl
      dsimp only
      rw [hsame, hfonts, hns]
      rfl

end Stage

/-! ## Documents -/

namespace Settings

/-- A whole drawing of a document stays what it is when the limit of nesting is raised. -/
lemma draw_deeper (settings : Settings) {limit : Nat} (hle : settings.reuseLimit ≤ limit)
    {root : Xml.Element} {registry : Registry} {raised signal : Bool} {d : Drawing}
    (hdraw : settings.draw root registry raised = (some d, signal)) (hwhole : d.IsWhole) :
    { settings with reuseLimit := limit }.draw root registry raised = (some d, signal) :=
  Stage.drawUnlessAborted_withLimit hle hdraw hwhole

/-- A translation that does not report that uses nest too deep stays what it is when the limit of
nesting is raised: its commands, its diagnostics and the numbers of its definitions, and the abort
signal afterwards.  A text that cannot be translated, other than because it is aborted, cannot be
translated with a higher limit either, for the same reason. -/
theorem translateWith_deeper (settings : Settings) {limit : Nat}
    (hle : settings.reuseLimit ≤ limit) (text : String) (raised signal : Bool) :
    (∀ t, settings.translateWith text raised = (.ok t, signal) → t.drawing.IsWhole →
      { settings with reuseLimit := limit }.translateWith text raised = (.ok t, signal)) ∧
    ∀ e, e ≠ .aborted → settings.translateWith text raised = (.error e, signal) →
      { settings with reuseLimit := limit }.translateWith text raised = (.error e, signal) := by
  unfold translateWith
  cases Xml.Document.read text with
  | error e => exact ⟨fun t ht => (nomatch ht), fun e' _ he' => he'⟩
  | ok document =>
    dsimp only
    unfold translateTree
    by_cases hroot : document.root.name = "svg"
    · simp only [if_neg (not_not.mpr hroot)]
      by_cases hdefinitions : settings.definitionsOnly = true
      · simp only [if_pos hdefinitions]
        exact ⟨fun t ht _ => ht, fun e _ he => he⟩
      · simp only [if_neg hdefinitions]
        rcases hdraw : settings.draw document.root (Registry.collect document.root).1 raised with
          ⟨_ | d, signal'⟩
        · exact ⟨fun t ht => (nomatch ht), fun e haborted he => by cases he; cases haborted rfl⟩
        · refine ⟨fun t ht hwhole => ?_, fun e _ he => (nomatch he)⟩
          cases ht
          rw [settings.draw_deeper hle hdraw ((Drawing.isWhole_append _ d).mp hwhole).2]
    · simp only [if_pos (show document.root.name ≠ "svg" from hroot)]
      exact ⟨fun t ht => (nomatch ht), fun e _ he => he⟩

set_option maxRecDepth 20000 in
/-- The document that comes back to itself through two uses nests two deep.  With this limit it
reports the cycle and not the limit, so it is what it is with the usual limit.  With a limit of one
it reports the limit. -/
theorem translateWith_deeper_roundabout :
    let root := Xml.Document.roundabout.root
    let narrow : Settings := { initial with reuseLimit := 2 }
    narrow.reuseLimit ≤ 16 ∧
    ¬ ({ initial with reuseLimit := 1 }.drawing root).IsWhole ∧
    ∃ t, narrow.translateWith Xml.roundabout false = (.ok t, false) ∧ t.drawing.IsWhole ∧
      t.drawing.commands.length = 2 ∧ t.drawing.diagnostics.length = 1 ∧
      initial.translateWith Xml.roundabout false = (.ok t, false) := by
  intro root narrow
  have hread : Xml.Document.read Xml.roundabout = .ok .roundabout := rfl
  have hle : narrow.reuseLimit ≤ 16 := by decide
  obtain ⟨t, ht⟩ := narrow.translateTree_ok .roundabout rfl fun _ => rfl
  have hdrawing := narrow.drawing_eq .roundabout rfl ht
  rw [← narrow.translateWith_of_read false hread] at ht
  have hwhole : t.drawing.IsWhole := by
    rw [hdrawing]
    decide +kernel
  refine ⟨hle, by decide +kernel, t, ht, hwhole, ?_, ?_,
    (narrow.translateWith_deeper hle Xml.roundabout false false).1 t ht hwhole⟩
  · rw [hdrawing]
    decide +kernel
  · rw [hdrawing]
    decide +kernel

end Settings

end SvgDisplayList
