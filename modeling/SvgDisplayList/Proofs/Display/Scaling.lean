import SvgDisplayList.Proofs.Drawing.Origin
import SvgDisplayList.Proofs.Drawing.Unplaced

/-!
# The size of the output

The scale, and the viewport where the root element has a view box, say how the drawing lies in the
output.  They decide the matrix of the root element and nothing else: lengths refer to the view box
(`Frame.size_eq_of_viewBox`).  So translations to outputs of different sizes succeed or fail alike,
and they are the same but for the matrices of their commands (`Settings.same_but_matrices`).
-/

namespace SvgDisplayList

/-- What a translation has apart from the matrices of its commands. -/
def Translation.unplaced (t : Translation) :
    (List Drawable × List Diagnostic) × DefinitionCounts :=
  (t.drawing.unplaced, t.definitions)

/-- Whether a root element has a view box that can be read. -/
def Xml.Tag.HasViewBox (root : Xml.Tag) : Prop :=
  ((root.attribute? "viewBox").bind ViewBox.ofText?).isSome

/-- The settings for an output of another scale and viewport. -/
def Settings.rescaled (settings : Settings) (scale : Float32)
    (viewport? : Option (Float32 × Float32)) : Settings :=
  { settings with scale, viewport? }

/-- The sizes that percentages refer to are those of the view box; without one they depend on the
viewport. -/
lemma Frame.size_eq_of_viewBox (settings settings' : Settings) {root : Xml.Tag}
    (h : settings'.viewport? = settings.viewport? ∨ root.HasViewBox) :
    (ofRoot settings' root).width = (ofRoot settings root).width ∧
      (ofRoot settings' root).height = (ofRoot settings root).height := by
  unfold Xml.Tag.HasViewBox at h
  unfold ofRoot
  rcases h with h | h
  · dsimp only
    rw [h]
    exact ⟨rfl, rfl⟩
  · obtain ⟨v, hv⟩ := Option.isSome_iff_exists.mp h
    dsimp only
    rw [hv]
    exact ⟨rfl, rfl⟩

/-- The text of a rectangle and a text, both of them measured by the view box of the root. -/
def Xml.framed : String :=
  "<svg viewBox=\"0 0 50 20\"><rect width=\"10%\" height=\"4\"/><text y=\"50%\">a</text></svg>"

/-- The tree of this text. -/
def Xml.Document.framed : Xml.Document where
  root := ⟨⟨0, none, "svg", [⟨none, "viewBox", "0 0 50 20"⟩]⟩,
    [.element ⟨1, none, "rect", [⟨none, "width", "10%"⟩, ⟨none, "height", "4"⟩]⟩ [],
    .element ⟨2, none, "text", [⟨none, "y", "50%"⟩]⟩ [.text "a"]]⟩
  beside := []

namespace Settings

section

variable (settings : Settings) (scale : Float32) {viewport? : Option (Float32 × Float32)}
  {root : Xml.Element} (h : viewport? = settings.viewport? ∨ root.tag.HasViewBox)

include h

/-- A document is drawn on the same stage. -/
lemma stage_rescaled : (settings.rescaled scale viewport?).stage root = settings.stage root := by
  obtain ⟨hwidth, hheight⟩ :=
    Frame.size_eq_of_viewBox settings (settings.rescaled scale viewport?) h
  unfold stage Frame.stage
  rw [hwidth, hheight]
  rfl

/-- The children of the root are in the same place but for its matrix. -/
lemma exists_rootPlace_rescaled : ∃ m, (settings.rescaled scale viewport?).rootPlace root =
    { settings.rootPlace root with matrix := m } := by
  unfold rootPlace
  rw [settings.stage_rescaled scale h]
  exact ⟨_, rfl⟩

/-- An element raises the abort signal alike. -/
lemma raises_rescaled (e : Xml.Element) :
    (settings.rescaled scale viewport?).raises root e = settings.raises root e := by
  obtain ⟨m, hplace⟩ := settings.exists_rootPlace_rescaled scale h
  unfold raises Stage.raises
  rw [settings.stage_rescaled scale h, hplace]
  exact Drawing.raisesAbort_eq_of_unplaced_eq (Stage.unplaced_node _ _ e.node _ _ m) _

/-- The children of the root draw the same but for the matrices of their commands. -/
lemma unplaced_drawing : ((settings.rescaled scale viewport?).drawing root).unplaced =
    (settings.drawing root).unplaced := by
  obtain ⟨m, hplace⟩ := settings.exists_rootPlace_rescaled scale h
  unfold drawing
  rw [settings.stage_rescaled scale h, hplace]
  exact Stage.unplaced_nodes _ (fun n _ => Stage.unplaced_node _ _ n _) _ m

end

section

variable (settings : Settings) (scale : Float32) {viewport? : Option (Float32 × Float32)}
  {document : Xml.Document} (h : viewport? = settings.viewport? ∨ document.root.tag.HasViewBox)

include h

/-- If nobody can abort the translation, it is the same but for the matrices of its commands. -/
lemma unplaced_complete :
    ((settings.rescaled scale viewport?).complete document).map Translation.unplaced =
      (settings.complete document).map Translation.unplaced := by
  have hdrawing := Drawing.unplaced_append_congr
    (a := .reports (Registry.collect document.root).2) rfl (settings.unplaced_drawing scale h)
  have hstops : (settings.rescaled scale viewport?).definitionsOnly = settings.definitionsOnly :=
    rfl
  unfold complete
  rw [hstops]
  split_ifs
  · rfl
  · rfl
  · exact congrArg (fun d => Except.ok (d, (Registry.collect document.root).1.counts)) hdrawing

/-- The translations of a document whose tree has been read, for outputs of different sizes. -/
lemma unplaced_translateTree (raised : Bool) :
    ((settings.rescaled scale viewport?).translateTree document raised).1.map
        Translation.unplaced =
      (settings.translateTree document raised).1.map Translation.unplaced ∧
    ((settings.rescaled scale viewport?).translateTree document raised).2 =
      (settings.translateTree document raised).2 := by
  have hraises := settings.raises_rescaled scale h
  have hdraws : (settings.rescaled scale viewport?).draws document = settings.draws document := rfl
  rw [translateTree_eq, translateTree_eq, hdraws, funext hraises]
  simp only [interrupted_congr hraises]
  refine ⟨?_, trivial⟩
  split_ifs
  · rfl
  · exact settings.unplaced_complete scale h

end

/-- A document is translated for an output of another scale with the same success or the same error,
the same signal, and the same commands, reports and definitions but for the matrices of the
commands.  The viewport may differ as well where the root element has a view box. -/
theorem same_but_matrices (settings : Settings) (scale : Float32)
    (viewport? : Option (Float32 × Float32)) (text : String) (raised : Bool)
    (hviewport : viewport? = settings.viewport? ∨
      ∀ document, Xml.Document.read text = .ok document → document.root.tag.HasViewBox) :
    let result' := (settings.rescaled scale viewport?).translateWith text raised
    let result := settings.translateWith text raised
    result'.1.map Translation.unplaced = result.1.map Translation.unplaced ∧
      result'.2 = result.2 := by
  cases hread : Xml.Document.read text with
  | error e =>
    unfold translateWith
    rw [hread]
    exact ⟨rfl, rfl⟩
  | ok document =>
    rw [settings.translateWith_of_read raised hread,
      (settings.rescaled scale viewport?).translateWith_of_read raised hread]
    exact settings.unplaced_translateTree scale
      (hviewport.imp_right fun h => h document hread) raised

set_option maxRecDepth 20000 in
/-- A document with a view box is the same but for its matrices on an output that is twelve times as
large. -/
theorem same_but_matrices_framed :
    (∀ document, Xml.Document.read Xml.framed = .ok document → document.root.tag.HasViewBox) ∧
    ∃ t t', initial.translateWith Xml.framed false = (.ok t, false) ∧
      (initial.rescaled 3 (some (200, 80))).translateWith Xml.framed false = (.ok t', false) ∧
      (t.drawing.commands.map (·.matrix.a)) = [1, 1] ∧
      (t'.drawing.commands.map (·.matrix.a)) = [12, 12] ∧ t'.unplaced = t.unplaced := by
  have hread : Xml.Document.read Xml.framed = .ok .framed := rfl
  have hbox : ∀ document, Xml.Document.read Xml.framed = .ok document →
      document.root.tag.HasViewBox := by
    intro document h
    obtain rfl : Xml.Document.framed = document := Except.ok.inj (hread.symm.trans h)
    unfold Xml.Tag.HasViewBox
    decide +kernel
  obtain ⟨t, ht⟩ := initial.translateTree_ok .framed rfl fun _ => rfl
  obtain ⟨t', ht'⟩ :=
    (initial.rescaled 3 (some (200, 80))).translateTree_ok .framed rfl fun _ => rfl
  have htext := (initial.translateWith_of_read false hread).trans ht
  have htext' := ((initial.rescaled 3 (some (200, 80))).translateWith_of_read false hread).trans ht'
  have hsame := (initial.same_but_matrices 3 (some (200, 80)) Xml.framed false (.inr hbox)).1
  rw [htext, htext'] at hsame
  refine ⟨hbox, t, t', htext, htext', ?_, ?_, Except.ok.inj hsame⟩
  · rw [initial.commands_eq rfl ht]
    decide +kernel
  · rw [(initial.rescaled 3 (some (200, 80))).commands_eq rfl ht']
    decide +kernel

end Settings

end SvgDisplayList
