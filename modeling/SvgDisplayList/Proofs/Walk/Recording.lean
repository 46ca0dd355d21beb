import SvgDisplayList.Proofs.Drawing.Bare
import SvgDisplayList.Proofs.Walk.Step

/-!
# What is recorded stays recorded

A walk over a document adds behind what has been drawn and reported.  The registry is read and not
written: it belongs to the stage and not to the state of the walk.

The reports of the definitions come first.  So a translation that stops after the definitions has
the beginning of what the complete translation reports, and what follows there has been recorded by
the walk (`Settings.definitionsOnly_prefix`).
-/

namespace SvgDisplayList

namespace Settings

variable (settings : Settings) (document : Xml.Document)

/-- A translation after which the abort signal is down is complete. -/
lemma translateTree_eq_complete (hdown : (settings.translateTree document false).2 = false) :
    settings.translateTree document false = (settings.complete document, false) := by
  rw [translateTree_eq] at hdown ⊢
  dsimp only at hdown
  rw [hdown, if_neg]
  rintro ⟨hdraws, ⟨hraised, -⟩ | ⟨e, he, hraises⟩⟩
  · cases hraised
  · have hany : document.root.childElements.any (settings.raises document.root) = true :=
      List.any_eq_true.mpr ⟨e, List.mem_of_mem_dropLast he, hraises⟩
    simp [hdraws, hany] at hdown

end Settings

/-- The text of two groups of one identifier and of a use that refers to nothing. -/
def Xml.conflict : String := "<svg><g id=\"a\"/><g id=\"a\"/><use href=\"#b\"/></svg>"

namespace Settings

/-- A translation that stops after the definitions fails as the complete one does, or both have a
result, provided that nobody raises the abort signal.  The numbers of the definitions are the same
then, and they are those of the registry with which the document is drawn.  The translation that
stops early has no commands.  Its diagnostics come first among those of the complete one, and what
follows is what the walk over the document records; a moment of the walk keeps what has been
recorded before and adds behind it. -/
theorem definitionsOnly_prefix (settings : Settings) (text : String)
    (hdown : ({ settings with definitionsOnly := false }.translateWith text false).2 = false) :
    let full : Settings := { settings with definitionsOnly := false }
    let only : Settings := { settings with definitionsOnly := true }
    (∃ e, only.translateWith text false = (.error e, false) ∧
      full.translateWith text false = (.error e, false)) ∨
    ∃ document t t', Xml.Document.read text = .ok document ∧
      only.translateWith text false = (.ok t, false) ∧
      full.translateWith text false = (.ok t', false) ∧
      t'.definitions = t.definitions ∧
      t.definitions = (full.stage document.root).registry.counts ∧
      t.drawing.commands = [] ∧
      (∃ last, (full.walk document.root last).agenda = [] ∧
        t'.drawing.diagnostics =
          t.drawing.diagnostics ++ (full.walk document.root last).drawn.diagnostics) ∧
      ∀ moment later, moment ≤ later →
        (full.walk document.root moment).drawn.Grows (full.walk document.root later).drawn := by
  intro full only
  cases hread : Xml.Document.read text with
  | error e =>
    refine Or.inl ⟨e, ?_, ?_⟩ <;>
    · unfold translateWith
      rw [hread]
  | ok document =>
    simp only [translateWith_of_read _ _ hread] at hdown ⊢
    have hfull := full.translateTree_eq_complete document hdown
    have honly := only.translateTree_eq_complete document
      (by rw [translateTree_eq]; simp [only, draws])
    by_cases hroot : document.root.name = "svg"
    · obtain ⟨t, ht⟩ := only.exists_complete document hroot
      obtain ⟨t', ht'⟩ := full.exists_complete document hroot
      rw [ht] at honly
      rw [ht'] at hfull
      have hdrawing := only.drawing_eq_of_definitionsOnly document rfl honly
      have hdrawing' := full.drawing_eq document rfl hfull
      obtain ⟨last, hlast⟩ := full.exists_walk_done document.root
      refine Or.inr ⟨document, t, t', rfl, honly, hfull, ?_, only.definitions_eq honly, ?_,
        ⟨last, ?_, ?_⟩, fun _ _ hle => full.grows_walk document.root hle⟩
      · rw [full.definitions_eq hfull, only.definitions_eq honly]
      · rw [hdrawing]
        rfl
      · rw [hlast]
      · rw [hlast, hdrawing, hdrawing']
        rfl
    · refine Or.inl ⟨.unexpectedRoot document.root.name, ?_, ?_⟩
      · rw [honly, complete, if_pos hroot]
      · rw [hfull, complete, if_pos hroot]

set_option maxRecDepth 20000 in
/-- The definitions report that the one group replaces the other; the drawing reports that the use
refers to nothing, and draws nothing. -/
theorem definitionsOnly_prefix_conflict :
    ({ initial with definitionsOnly := false }.translateWith Xml.conflict false).2 = false ∧
    ∃ t t', { initial with definitionsOnly := true }.translateWith Xml.conflict false =
        (.ok t, false) ∧
      { initial with definitionsOnly := false }.translateWith Xml.conflict false =
        (.ok t', false) ∧
      t'.definitions = t.definitions ∧ t.drawing.commands = [] ∧
      t.drawing.diagnostics.length = 1 ∧ t'.drawing.diagnostics.length = 2 ∧
      t.drawing.diagnostics <+: t'.drawing.diagnostics := by
  let full : Settings := { initial with definitionsOnly := false }
  let only : Settings := { initial with definitionsOnly := true }
  have hdown : (full.translateWith Xml.conflict false).2 = false := by decide +kernel
  have hlength : (only.translateWith Xml.conflict false).1.toOption.map
      (·.drawing.diagnostics.length) = some 1 := by decide +kernel
  have hlength' : (full.translateWith Xml.conflict false).1.toOption.map
      (·.drawing.diagnostics.length) = some 2 := by decide +kernel
  rcases initial.definitionsOnly_prefix Xml.conflict hdown with ⟨e, he, -⟩ |
    ⟨document, t, t', -, ht, ht', hdefinitions, -, hcommands, ⟨last, -, heq⟩, -⟩
  · rw [he] at hlength
    cases hlength
  · rw [ht] at hlength
    rw [ht'] at hlength'
    exact ⟨hdown, t, t', ht, ht', hdefinitions, hcommands, Option.some.inj hlength,
      Option.some.inj hlength', heq ▸ List.prefix_append _ _⟩

end Settings

end SvgDisplayList
