import SvgDisplayList.Proofs.Drawing.Abort
import SvgDisplayList.Proofs.Walk.Run

/-!
# The walk over a whole document

`Settings.walk` is the state of the walk over a document at a moment.  The walk comes to an end with
its stacks taken down (`Settings.exists_walk_done`), and what it has drawn by then is what the
translation draws, whenever there is a translation at all (`Settings.drawing_eq`).  There is one if
no font raises the abort signal (`Settings.translateTree_ok`).
-/

namespace SvgDisplayList

namespace Settings

variable (settings : Settings) (root : Xml.Element)

/-- The stage on which the document of a root element is drawn. -/
def stage : Stage := (Frame.ofRoot settings root.tag).stage settings (Registry.collect root).1

/-- The place of the children of a root element. -/
def rootPlace : Place := (Frame.ofRoot settings root.tag).place (settings.stage root) root.tag

/-- The state of the walk over a document at a moment. -/
def walk (moment : Nat) : Walk :=
  (settings.stage root).advance^[moment] (Stage.start root (settings.rootPlace root))

/-- What the children of a root element draw. -/
def drawing : Drawing :=
  (settings.stage root).nodes ((settings.stage root).reuse settings.reuseLimit) root.children
    [root.tag] (settings.rootPlace root)

/-- Nothing has been done before the first moment. -/
lemma walk_zero : settings.walk root 0 = Stage.start root (settings.rootPlace root) := rfl

/-- Each moment is a step after the one before. -/
lemma walk_succ (moment : Nat) :
    settings.walk root (moment + 1) = (settings.stage root).advance (settings.walk root moment) :=
  Function.iterate_succ_apply' _ _ _

/-- The walk comes to an end: nothing is left to do, no matrix and no use is left in force, and the
children of the root are drawn. -/
theorem exists_walk_done :
    ∃ moment, settings.walk root moment = ⟨[], [], settings.drawing root, []⟩ := by
  let place := settings.rootPlace root
  let inner : Walk := ⟨[place.matrix], place.chain, .empty, [.leave root.tag []]⟩
  have hchildren : ∀ n ∈ root.children, (settings.stage root).Draws settings.reuseLimit n :=
    fun n _ => Stage.draws_node (settings.stage root) settings.reuseLimit n
  have hnodes := Stage.leads_nodes (w := inner) hchildren (Nat.zero_add _) [root.tag] place.style
  exact hnodes.tail

/-! ## The abort signal -/

/-- Whether an element below the root raises the abort signal when it is drawn. -/
def raises (e : Xml.Element) : Bool :=
  (settings.stage root).raises [root.tag] (settings.rootPlace root) e

/-- The abort signal is raised when one of the children of the root is about to be drawn. -/
def Interrupted (raised : Bool) : Prop :=
  (settings.stage root).Interrupted [root.tag] (settings.rootPlace root) root.childElements raised

instance (raised : Bool) : Decidable (settings.Interrupted root raised) :=
  inferInstanceAs (Decidable (Stage.Interrupted _ _ _ _ _))

/-- What elements raise decides when they are interrupted. -/
lemma interrupted_congr {settings settings' : Settings} {root : Xml.Element}
    (h : ∀ e, settings'.raises root e = settings.raises root e) (raised : Bool) :
    settings'.Interrupted root raised ↔ settings.Interrupted root raised := by
  have hraises : (settings'.stage root).raises [root.tag] (settings'.rootPlace root) =
      (settings.stage root).raises [root.tag] (settings.rootPlace root) := funext h
  unfold Interrupted Stage.Interrupted
  rw [hraises]

/-- The children of the root are drawn to the end unless they are interrupted. -/
lemma draw_eq (raised : Bool) : settings.draw root (Registry.collect root).1 raised =
    (if settings.Interrupted root raised then none else some (settings.drawing root),
      raised || root.childElements.any (settings.raises root)) :=
  Stage.drawUnlessAborted_eq root.children raised

/-! ## Translations -/

variable (document : Xml.Document) {raised raised' : Bool} {t : Translation}

/-- What a document is translated to if nobody can abort the translation. -/
def complete : Except DocumentError Translation :=
  if document.root.name ≠ "svg" then .error (.unexpectedRoot document.root.name)
  else
    .ok ⟨.reports (Registry.collect document.root).2 ++
      if settings.definitionsOnly then .empty else settings.drawing document.root,
      (Registry.collect document.root).1.counts⟩

/-- Whether a document is drawn: it has the right root element, and more than its definitions is
asked for. -/
def draws : Bool := document.root.name == "svg" && !settings.definitionsOnly

/-- A document is translated completely unless it is drawn and interrupted, and the signal is raised
afterwards if it was raised before or the document is drawn and raises it. -/
theorem translateTree_eq (raised : Bool) : settings.translateTree document raised =
    (if settings.draws document = true ∧ settings.Interrupted document.root raised then
      .error .aborted
    else settings.complete document,
    raised || settings.draws document &&
      document.root.childElements.any (settings.raises document.root)) := by
  unfold translateTree complete draws
  dsimp only
  by_cases hroot : document.root.name = "svg"
  · rw [if_neg (not_not.mpr hroot), if_neg (not_not.mpr hroot), settings.draw_eq]
    cases settings.definitionsOnly with
    | true => simp
    | false => by_cases hinterrupted : settings.Interrupted document.root raised <;> simp [*]
  · simp [hroot]

/-- A document with the right root element has a translation, if nobody can abort it. -/
lemma exists_complete (hroot : document.root.name = "svg") :
    ∃ t, settings.complete document = .ok t := by
  unfold complete
  rw [if_neg (not_not.mpr hroot)]
  exact ⟨_, rfl⟩

/-- A translation is the complete one. -/
lemma complete_eq (h : settings.translateTree document raised = (.ok t, raised')) :
    settings.complete document = .ok t := by
  rw [translateTree_eq, Prod.mk.injEq] at h
  split_ifs at h
  · cases h.1
  · exact h.1

/-- A translation has the reports of its definitions before all that the document draws. -/
theorem drawing_eq (hdraw : settings.definitionsOnly = false)
    (h : settings.translateTree document raised = (.ok t, raised')) :
    t.drawing = .reports (Registry.collect document.root).2 ++ settings.drawing document.root := by
  have hcomplete := settings.complete_eq document h
  unfold complete at hcomplete
  split_ifs at hcomplete with hroot hdefinitions
  · rw [hdraw] at hdefinitions
    cases hdefinitions
  · rw [← Except.ok.inj hcomplete]

/-- A translation that stops after the definitions has their reports alone. -/
lemma drawing_eq_of_definitionsOnly (hdraw : settings.definitionsOnly = true)
    (h : settings.translateTree document raised = (.ok t, raised')) :
    t.drawing = .reports (Registry.collect document.root).2 := by
  have hcomplete := settings.complete_eq document h
  unfold complete at hcomplete
  split_ifs at hcomplete
  rw [← Except.ok.inj hcomplete]
  exact Drawing.append_empty _

/-- A document with the right root element has a translation if no font raises the abort signal, and
it stays down. -/
theorem translateTree_ok (hroot : document.root.name = "svg")
    (hquiet : ∀ q, settings.fonts.raisesAbort q = false) :
    ∃ t, settings.translateTree document false = (.ok t, false) := by
  have hinterrupted : ¬ settings.Interrupted document.root false :=
    Stage.not_interrupted_of_quiet hquiet _
  have hraises : ∀ e, settings.raises document.root e = false := Stage.raises_of_quiet hquiet
  obtain ⟨t, ht⟩ := settings.exists_complete document hroot
  refine ⟨t, ?_⟩
  rw [translateTree_eq, if_neg fun h => hinterrupted h.2, ht]
  simp [hraises]

/-- A text that is read is translated as its tree is. -/
lemma translateWith_of_read (settings : Settings) (raised : Bool) {text : String}
    {document : Xml.Document} (hread : Xml.Document.read text = .ok document) :
    settings.translateWith text raised = settings.translateTree document raised := by
  unfold translateWith
  rw [hread]

end Settings

/-! ## The commands of a document -/

/-- The text of a group with a square and a use of a group that uses the first one. -/
def Xml.roundabout : String :=
  "<svg><defs><g id=\"d\"><use href=\"#a\"/></g></defs>" ++
    "<g id=\"a\"><rect width=\"1\" height=\"1\"/><use href=\"#d\"/></g></svg>"

/-- The tree of this text. -/
def Xml.Document.roundabout : Xml.Document where
  root := ⟨⟨0, none, "svg", []⟩,
    [.element ⟨1, none, "defs", []⟩
      [.element ⟨2, none, "g", [⟨none, "id", "d"⟩]⟩
        [.element ⟨3, none, "use", [⟨none, "href", "#a"⟩]⟩ []]],
    .element ⟨4, none, "g", [⟨none, "id", "a"⟩]⟩
      [.element ⟨5, none, "rect", [⟨none, "width", "1"⟩, ⟨none, "height", "1"⟩]⟩ [],
      .element ⟨6, none, "use", [⟨none, "href", "#d"⟩]⟩ []]]⟩
  beside := []

namespace Settings

end Settings

end SvgDisplayList
