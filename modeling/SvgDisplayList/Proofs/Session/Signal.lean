import SvgDisplayList.Proofs.Walk.Document

/-!
# Translations under a signal

A translation looks at the abort signal when a child of the root element is about to be drawn and
fails if it is up; otherwise its result is the one that nobody could have aborted
(`Settings.translateUnder_eq`, `Settings.translateUnder_of_svg`).  The signal that fonts raise is
one of those under which documents are translated (`Settings.translateWith_eq_translateUnder`).
-/

namespace SvgDisplayList

namespace Settings

variable (settings : Settings)

/-- Translates a document, while nobody can abort the translation. -/
def translateUnwatched (text : String) : Except DocumentError Translation :=
  match Xml.Document.read text with
  | .error e => .error e
  | .ok document => settings.complete document

/-- Translates a document under a signal.  Returns as well whether it is up afterwards. -/
def translateUnder (signal : Signal) (text : String) : Except DocumentError Translation × Bool :=
  match Xml.Document.read text with
  | .error e => (.error e, signal.up [])
  | .ok document =>
    let root := document.root
    if root.name ≠ "svg" then (.error (.unexpectedRoot root.name), signal.up [])
    else
      let (registry, reports) := Registry.collect root
      let translation (d : Drawing) : Translation := ⟨.reports reports ++ d, registry.counts⟩
      if settings.definitionsOnly then (.ok (translation .empty), signal.up [])
      else
        match (settings.stage root).drawUnder signal [root.tag] (settings.rootPlace root)
          root.children [] with
        | (some d, asked) => (.ok (translation d), signal.up asked)
        | (none, asked) => (.error .aborted, signal.up asked)

/-- The queries made when the first children of the root element, of some number, are drawn. -/
def asked (root : Xml.Element) (i : Nat) : List FontQuery :=
  (settings.stage root).queries [root.tag] (settings.rootPlace root) (root.childElements.take i)

variable (signal : Signal)

/-- The children of the root are drawn to the end unless the signal is up before one of them, and in
the end it is as all their queries leave it. -/
lemma exists_drawUnder_eq (root : Xml.Element) :
    ∃ made, (settings.stage root).drawUnder signal [root.tag] (settings.rootPlace root)
        root.children [] =
      (if ∃ i < root.childElements.length, signal.up (settings.asked root i) = true then none
        else some (settings.drawing root), made) ∧
      signal.up made = signal.up (settings.asked root root.childElements.length) := by
  refine ⟨_, Prod.ext (Stage.drawUnder_fst root.children []) rfl, ?_⟩
  rw [Stage.up_drawUnder_snd, asked, List.take_length]
  rfl

variable {text : String} {document : Xml.Document}

/-- A document is translated completely unless it is drawn and the signal is up before one of the
children of the root.  The signal is up afterwards if all that is drawn brings it up. -/
theorem translateUnder_eq (hread : Xml.Document.read text = .ok document) :
    settings.translateUnder signal text =
      (if settings.draws document = true ∧ ∃ i < document.root.childElements.length,
            signal.up (settings.asked document.root i) = true then .error .aborted
        else settings.complete document,
      signal.up (if settings.draws document = true then
        settings.asked document.root document.root.childElements.length else [])) := by
  unfold translateUnder complete draws
  rw [hread]
  dsimp only
  by_cases hroot : document.root.name = "svg"
  · rw [if_neg (not_not.mpr hroot), if_neg (not_not.mpr hroot)]
    cases settings.definitionsOnly with
    | true => simp
    | false =>
      obtain ⟨made, hdraw, hmade⟩ := settings.exists_drawUnder_eq signal document.root
      rw [hdraw]
      by_cases hup : ∃ i < document.root.childElements.length,
        signal.up (settings.asked document.root i) = true
      · rw [if_pos hup]
        simp [hroot, hup, hmade]
      · rw [if_neg hup]
        simp [hroot, hup, hmade]
  · simp [hroot]

/-- The translation of a document with the right root element fails if the document is drawn and the
signal is up before one of the children of the root, and otherwise nothing has disturbed it. -/
theorem translateUnder_of_svg (hread : Xml.Document.read text = .ok document)
    (hroot : document.root.name = "svg") :
    ((settings.translateUnder signal text).1 = .error .aborted ↔
      settings.definitionsOnly = false ∧ ∃ i < document.root.childElements.length,
        signal.up (settings.asked document.root i) = true) ∧
    ∃ t, settings.translateUnwatched text = .ok t ∧
      ((settings.translateUnder signal text).1 ≠ .error .aborted →
        (settings.translateUnder signal text).1 = .ok t) := by
  obtain ⟨t, ht⟩ := settings.exists_complete document hroot
  have hdraws : settings.draws document = true ↔ settings.definitionsOnly = false := by
    simp [draws, hroot]
  have hunwatched : settings.translateUnwatched text = .ok t := by
    unfold translateUnwatched
    rw [hread]
    exact ht
  rw [settings.translateUnder_eq signal hread, ← hdraws, ht]
  refine ⟨?_, t, hunwatched, ?_⟩
  · rw [ite_eq_left_iff]
    exact ⟨fun h => by_contra fun hup => (nomatch h hup), fun h hup => absurd h hup⟩
  · intro h
    exact if_neg fun hup => h (if_pos hup)

/-- The signal that the fonts raise is the one under which documents are translated. -/
theorem translateWith_eq_translateUnder (raised : Bool) (text : String) :
    settings.translateWith text raised =
      settings.translateUnder (settings.fonts.signal raised) text := by
  have hstart : (settings.fonts.signal raised).up [] = raised := Bool.or_false raised
  cases hread : Xml.Document.read text with
  | error e =>
    unfold translateWith translateUnder
    rw [hread, hstart]
  | ok document =>
    have hinterrupted : settings.Interrupted document.root raised ↔
        ∃ i < document.root.childElements.length,
          (settings.fonts.signal raised).up (settings.asked document.root i) = true :=
      Stage.interrupted_iff _ raised
    rw [settings.translateWith_of_read raised hread, translateTree_eq,
      settings.translateUnder_eq _ hread]
    simp only [hinterrupted]
    congr 1
    cases settings.draws document with
    | false => rw [Bool.false_and, Bool.or_false, if_neg Bool.false_ne_true, hstart]
    | true =>
      rw [Bool.true_and, if_pos rfl, asked, List.take_length, FontSource.up_signal]
      congr 1
      exact Stage.any_raises _

/-- A signal that is up stays up. -/
lemma raised_translateWith (text : String) : (settings.translateWith text true).2 = true := by
  unfold translateWith
  cases Xml.Document.read text with
  | error e => rfl
  | ok document => exact congrArg Prod.snd (settings.translateTree_eq document true)

end Settings

end SvgDisplayList
