import SvgDisplayList.Proofs.Drawing.Shown
import SvgDisplayList.Proofs.Inlining.Document

/-!
# Visibility is a filter

Hiding elements and showing others again takes commands away and changes nothing else.  The document
without any declaration of visibility (`Xml.Document.shown`) draws the commands of all emissions of
the document, and the document itself draws the commands of those that are visible
(`Settings.commands_eq_visible_emissions`).
-/

namespace SvgDisplayList

/-- A command that is drawn when every element is visible, with the tag of its element and those
that this element inherits from, nearest first. -/
structure Emission where
  command : DrawCommand
  path : List Xml.Tag

namespace Emission

/-- Whether the element of an emission is visible: the nearest declaration along its path
decides. -/
def isVisible (x : Emission) : Bool := visibleAlong x.path

end Emission

/-- What an occurrence emits when it is made visible. -/
def Stage.emission? (stage : Stage) (o : Occurrence) : Option Emission :=
  (stage.command? o.asVisible).map (⟨·, o.path⟩)

/-- The text of a hidden group with two squares, of which the second one is shown. -/
def Xml.hiddenGroup : String :=
  "<svg><g visibility=\"hidden\"><rect width=\"1\" height=\"1\"/>" ++
    "<rect style=\"visibility:visible\" width=\"1\" height=\"1\"/></g></svg>"

/-- The tree of this text. -/
def Xml.Document.hiddenGroup : Xml.Document where
  root := ⟨⟨0, none, "svg", []⟩,
    [.element ⟨1, none, "g", [⟨none, "visibility", "hidden"⟩]⟩
      [.element ⟨2, none, "rect", [⟨none, "width", "1"⟩, ⟨none, "height", "1"⟩]⟩ [],
      .element ⟨3, none, "rect", [⟨none, "style", "visibility:visible"⟩, ⟨none, "width", "1"⟩,
        ⟨none, "height", "1"⟩]⟩ []]]⟩
  beside := []

namespace Settings

variable (settings : Settings) (root : Xml.Element)

/-- What the drawing of a node below the root comes to. -/
def occurrences (n : Xml.Node) : List Occurrence :=
  (settings.stage root).occurrences n [root.tag] (settings.rootPlace root).style
    (settings.rootPlace root).matrix [] [root.tag]

/-- What a document emits when every element is visible, in the order of its drawing. -/
def emissions : List Emission :=
  if settings.definitionsOnly then []
  else root.children.flatMap fun n =>
    (settings.occurrences root n).filterMap (settings.stage root).emission?

/-! ## The document without declarations of visibility -/

/-- Its definitions are those of the document, of elements without declarations of visibility. -/
lemma alike_shown : Registry.Alike (fun x x' => x' = (x.1.shown, x.2.map Xml.Tag.shown))
    (Registry.collect root).1 (Registry.collect root.shown).1 := by
  have hnode : root.shown.node = root.node.mapTags Xml.Tag.shown := root.node_mapTags
  have helements : List.Forall₂ (fun x x' => x' = (x.1.shown, x.2.map Xml.Tag.shown))
      (root.node.elements []) (root.shown.node.elements []) := by
    rw [hnode, show ([] : List Xml.Tag) = [].map Xml.Tag.shown from rfl,
      Xml.Node.elements_mapTags, List.forall₂_map_right_iff]
    exact List.forall₂_same.mpr fun _ _ => rfl
  refine (Registry.alike_collect (List.rel_filterMap ?_ helements)).1
  rintro x x' rfl
  exact Collection.rel_finding?_of_eq rfl rfl (x.1.tag.attribute?_shown (by decide))
    fun kind id _ => Gradient.ofElement_shown kind id x.1

/-- Its stage. -/
lemma shows_stage : (settings.stage root).Shows (settings.stage root.shown) where
  gradient := (alike_shown root).gradient?_eq
  element id := by
    have hrel := (alike_shown root).rel_element? (fun _ _ h => h) id
    change (Registry.collect root.shown).1.element? id =
      ((Registry.collect root).1.element? id).map _
    generalize (Registry.collect root).1.element? id = x? at hrel ⊢
    generalize (Registry.collect root.shown).1.element? id = x'? at hrel ⊢
    cases hrel with
    | none => rfl
    | some hx => rw [hx, Option.map_some]
  fonts := rfl
  width := congrArg (·.width) (Frame.ofRoot_congr root.tag.sameContent_shown settings)
  height := congrArg (·.height) (Frame.ofRoot_congr root.tag.sameContent_shown settings)
  limit := rfl

/-- The place of the children of its root. -/
lemma rootPlace_shown : settings.rootPlace root.shown =
    { settings.rootPlace root with style := (settings.rootPlace root).style.withVisible true } := by
  have hframe : Frame.ofRoot settings root.shown.tag = Frame.ofRoot settings root.tag :=
    Frame.ofRoot_congr root.tag.sameContent_shown settings
  have hstyle : Style.initial.derive (.ofTag root.shown.tag)
      ((settings.stage root).sizes initialFontSize) =
        (settings.rootPlace root).style.withVisible true := by
    change Style.initial.derive (.ofTag root.tag.shown) _ =
      (Style.initial.derive _ _).withVisible true
    rw [Declarations.ofTag_shown, Style.withVisible_derive]
    rfl
  have hplace : settings.rootPlace root.shown =
      (Frame.ofRoot settings root.shown.tag).place (settings.stage root.shown) root.shown.tag := rfl
  rw [hplace, hframe]
  unfold Frame.place
  rw [(settings.shows_stage root).sizes_eq, hstyle]
  rfl

/-- The drawing of a node comes to the same, made visible. -/
lemma occurrences_shown (n : Xml.Node) : settings.occurrences root.shown n.shown =
    (settings.occurrences root n).map Occurrence.shown := by
  have hocc := (settings.shows_stage root).occurrences_shown n [root.tag]
    (settings.rootPlace root).style (settings.rootPlace root).matrix [] [root.tag]
  unfold occurrences
  rw [rootPlace_shown]
  exact hocc

/-! ## What the documents draw -/

/-- A node below the root draws what its occurrences draw. -/
lemma commands_draw (n : Xml.Node) :
    ((settings.stage root).draw n [root.tag] (settings.rootPlace root)).commands =
      (settings.occurrences root n).filterMap (settings.stage root).command? := by
  unfold Stage.draw occurrences
  rw [Stage.commands_node _ _ n _ _ (Nat.zero_add _)]
  exact Stage.contribution_eq _ _ _ _ _ _ _

/-- The occurrences of a node below the root are as visible as their paths say. -/
lemma visible_of_mem_occurrences {n : Xml.Node} {o : Occurrence}
    (ho : o ∈ settings.occurrences root n) : o.style.visible = o.isVisible := by
  have hinitial : Style.initial.visible = visibleAlong [] := rfl
  exact Stage.visible_of_mem_occurrences
    (Style.initial.visible_derive_ofTag _ hinitial root.tag) o ho

/-- A node without declarations of visibility draws all that the node emits. -/
lemma commands_draw_shown (n : Xml.Node) :
    ((settings.stage root.shown).draw n.shown [root.shown.tag]
        (settings.rootPlace root.shown)).commands =
      ((settings.occurrences root n).filterMap (settings.stage root).emission?).map
        (·.command) := by
  rw [commands_draw, occurrences_shown, List.filterMap_map, List.map_filterMap]
  refine List.filterMap_congr fun o _ => ?_
  unfold Stage.emission?
  rw [Option.map_map, Function.comp_apply, (settings.shows_stage root).command?_shown]
  exact Option.map_id'.symm

/-- A node draws what it emits and what is visible. -/
lemma commands_draw_visible (n : Xml.Node) :
    ((settings.stage root).draw n [root.tag] (settings.rootPlace root)).commands =
      (((settings.occurrences root n).filterMap (settings.stage root).emission?).filter
        (·.isVisible)).map (·.command) := by
  rw [commands_draw, List.filter_filterMap, List.map_filterMap]
  refine List.filterMap_congr fun o ho => ?_
  rw [Stage.command?_eq (settings.visible_of_mem_occurrences root ho)]
  unfold Stage.emission?
  have hvisible : ∀ c : DrawCommand, (⟨c, o.path⟩ : Emission).isVisible = o.isVisible :=
    fun _ => rfl
  cases (settings.stage root).command? o.asVisible with
  | none => rw [ite_self, Option.map_none, Option.filter_none, Option.map_none]
  | some c =>
    rw [Option.map_some, Option.filter_some, hvisible]
    split_ifs <;> rfl

/-- An element raises the abort signal only if it does so without declarations of visibility. -/
lemma raises_shown {e : Xml.Element} (h : settings.raises root e = true) :
    settings.raises root.shown e.shown = true := by
  have hnode : e.shown.node = e.node.shown := e.node_mapTags
  have hfonts : (settings.stage root.shown).fonts = (settings.stage root).fonts := rfl
  unfold raises Stage.raises Drawing.raisesAbort at h ⊢
  rw [List.any_eq_true] at h ⊢
  obtain ⟨c, hc, hraises⟩ := h
  rw [settings.commands_draw_visible] at hc
  obtain ⟨x, hx, rfl⟩ := List.mem_map.mp hc
  refine ⟨x.command, ?_, hfonts ▸ hraises⟩
  rw [hnode, settings.commands_draw_shown]
  exact List.mem_map_of_mem (List.mem_of_mem_filter hx)

/-- A document is interrupted only if it is so without declarations of visibility. -/
lemma interrupted_shown {raised : Bool} (h : settings.Interrupted root raised) :
    settings.Interrupted root.shown raised := by
  have hchildren : root.shown.childElements = root.childElements.map Xml.Element.shown :=
    root.childElements_mapTags
  unfold Interrupted
  rw [hchildren]
  rcases h with ⟨hraised, hne⟩ | ⟨e, he, hraises⟩
  · exact Or.inl ⟨hraised, by simpa using hne⟩
  · refine Or.inr ⟨e.shown, ?_, settings.raises_shown root hraises⟩
    rw [← List.map_dropLast]
    exact List.mem_map_of_mem he

/-! ## Translations -/

variable {settings root} {document : Xml.Document} {raised signal : Bool} {t : Translation}

/-- The commands of a translation are those that the children of the root draw. -/
lemma commands_eq_flatMap (h : settings.translateTree document raised = (.ok t, signal)) :
    t.drawing.commands = if settings.definitionsOnly then [] else
      document.root.children.flatMap fun n => ((settings.stage document.root).draw n
        [document.root.tag] (settings.rootPlace document.root)).commands := by
  cases hdraw : settings.definitionsOnly with
  | true =>
    rw [settings.drawing_eq_of_definitionsOnly document hdraw h, if_pos rfl]
    rfl
  | false =>
    rw [settings.commands_eq hdraw h, if_neg Bool.false_ne_true]
    exact Stage.commands_nodes_eq_flatMap _ _ _ _ _

/-- A document is translated if it is without declarations of visibility. -/
lemma exists_translateTree_of_shown
    (h : settings.translateTree document.shown raised = (.ok t, signal)) :
    ∃ t signal, settings.translateTree document raised = (.ok t, signal) := by
  have hname : document.shown.root.name = "svg" := settings.root_name_of_translateTree h
  change document.root.name = "svg" at hname
  have hdraws : settings.draws document.shown = settings.draws document := rfl
  rw [translateTree_eq, Prod.mk.injEq, hdraws] at h
  have hgoes : ¬ (settings.draws document = true ∧ settings.Interrupted document.root raised) := by
    rintro ⟨hdraw, hinterrupted⟩
    rw [if_pos ⟨hdraw, settings.interrupted_shown document.root hinterrupted⟩] at h
    cases h.1
  obtain ⟨t, ht⟩ := settings.exists_complete document hname
  rw [translateTree_eq, if_neg hgoes, ht]
  exact ⟨_, _, rfl⟩

/-- Whenever the document without its declarations of visibility is translated, so is the document.
Then the one has the commands of all emissions of the document, in order, and the other one has the
commands of those whose elements are visible.  Both are translated if no font raises the abort
signal. -/
theorem commands_eq_visible_emissions (settings : Settings) (document : Xml.Document)
    (raised : Bool) :
    (∀ text, Xml.Document.read text = .ok document →
      settings.translateWith text raised = settings.translateTree document raised) ∧
    (∀ t signal, settings.translateTree document raised = (.ok t, signal) →
      t.drawing.commands =
        ((settings.emissions document.root).filter (·.isVisible)).map (·.command)) ∧
    (∀ t' signal', settings.translateTree document.shown raised = (.ok t', signal') →
      t'.drawing.commands = (settings.emissions document.root).map (·.command) ∧
      ∃ t signal, settings.translateTree document raised = (.ok t, signal)) ∧
    (document.root.name = "svg" → (∀ q, settings.fonts.raisesAbort q = false) →
      ∃ t', settings.translateTree document.shown false = (.ok t', false)) := by
  refine ⟨fun _ => settings.translateWith_of_read raised, fun t signal h => ?_,
    fun t' signal' h => ⟨?_, ?_⟩, fun hname hquiet => ?_⟩
  · rw [commands_eq_flatMap h]
    unfold emissions
    split_ifs
    · rfl
    · rw [List.filter_flatMap, List.map_flatMap]
      exact List.flatMap_congr fun n _ => settings.commands_draw_visible document.root n
  · have hchildren : document.shown.root.children = document.root.children.map Xml.Node.shown := rfl
    rw [commands_eq_flatMap h]
    unfold emissions
    split_ifs
    · rfl
    · rw [hchildren, List.flatMap_map, List.map_flatMap]
      exact List.flatMap_congr fun n _ => settings.commands_draw_shown document.root n
  · exact exists_translateTree_of_shown h
  · exact settings.translateTree_ok document.shown hname hquiet

set_option maxRecDepth 20000 in
/-- Of the two squares the second one is left, as it is when nothing is hidden. -/
theorem commands_eq_visible_emissions_hiddenGroup :
    ∃ t t', initial.translateWith Xml.hiddenGroup false = (.ok t, false) ∧
      initial.translateTree Xml.Document.hiddenGroup.shown false = (.ok t', false) ∧
      t.drawing.commands.length = 1 ∧ t'.drawing.commands.length = 2 ∧
      t.drawing.commands.Sublist t'.drawing.commands := by
  have hread : Xml.Document.read Xml.hiddenGroup = .ok .hiddenGroup := rfl
  obtain ⟨htext, hvisible, hall, hcomplete⟩ :=
    initial.commands_eq_visible_emissions .hiddenGroup false
  obtain ⟨t', ht'⟩ := hcomplete rfl fun _ => rfl
  obtain ⟨t, ht⟩ := initial.translateTree_ok .hiddenGroup rfl fun _ => rfl
  refine ⟨t, t', (htext _ hread).trans ht, ht', ?_, ?_, ?_⟩
  · rw [initial.commands_eq rfl ht]
    decide +kernel
  · rw [initial.commands_eq rfl ht']
    decide +kernel
  · rw [hvisible t false ht, (hall t' false ht').1]
    exact List.filter_sublist.map _

end Settings

end SvgDisplayList
