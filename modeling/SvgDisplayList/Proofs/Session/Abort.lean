import SvgDisplayList.Compiler
import SvgDisplayList.Proofs.Session.Signal

/-!
# Sessions with an abort signal

The signal is all that a translation leaves to those after it.  What a compiler replies to a request
depends on its settings and on the signal, and not on its logs (`Compiler.Agrees.answer`); only a
reset lowers the signal (`Compiler.raised_session`).  So in a session a translation is aborted or
not as it would be on its own (`Compiler.abort_all_or_nothing`).
-/

namespace SvgDisplayList

/-- What a compiler is asked for. -/
inductive Request where
  | translate (d : TimedDocument)
  /-- Documents to be taken in turn. -/
  | batch (ds : List TimedDocument)
  | abort
  | reset
  | isAborted

/-- What a compiler replies to a request. -/
inductive Reply where
  | translation (result : Except DocumentError Translation)
  | translations (results : List (Except DocumentError Translation))
  | done
  | flag (raised : Bool)

namespace Compiler

/-- Answers a request. -/
def answer (c : Compiler) : Request → Reply × Compiler
  | .translate d => ((.translation (c.translate d).1), (c.translate d).2)
  | .batch ds => ((.translations (c.translateBatch ds).1), (c.translateBatch ds).2)
  | .abort => (.done, c.abort)
  | .reset => (.done, c.reset)
  | .isAborted => (.flag c.raised, c)

/-- Answers requests one after the other. -/
def session (c : Compiler) : List Request → List Reply × Compiler
  | [] => ([], c)
  | q :: qs => ((c.answer q).1 :: ((c.answer q).2.session qs).1, ((c.answer q).2.session qs).2)

/-- Two compilers agree if they differ in their logs at most. -/
structure Agrees (c c' : Compiler) : Prop where
  settings : c.settings = c'.settings
  raised : c.raised = c'.raised

variable {c c' : Compiler}

/-- A compiler agrees with itself. -/
@[refl]
lemma Agrees.refl (c : Compiler) : c.Agrees c := ⟨rfl, rfl⟩

/-! ### What a request leaves -/

/-- The settings stay during a batch. -/
@[simp]
lemma settings_translateFrom (c : Compiler) (start : Nat) (ds : List TimedDocument) :
    (c.translateFrom start ds).2.settings = c.settings := by
  induction ds generalizing c start with
  | nil => rfl
  | cons d ds ih => exact ih (c.run (some start) d).2 (start + 1)

/-- The settings stay during a session. -/
@[simp]
lemma settings_session (c : Compiler) (qs : List Request) :
    (c.session qs).2.settings = c.settings := by
  induction qs generalizing c with
  | nil => rfl
  | cons q qs ih =>
    refine (ih (c.answer q).2).trans ?_
    cases q with
    | batch ds => exact settings_translateFrom c 0 ds
    | _ => rfl

/-- A translation does not lower the signal. -/
lemma raised_run (id : Log.DocumentId) (d : TimedDocument) (h : c.raised = true) :
    (c.run id d).2.raised = true := by
  have hraised : (c.run id d).2.raised = (c.settings.translateWith d.text c.raised).2 := rfl
  rw [hraised, h]
  exact c.settings.raised_translateWith d.text

/-- A batch does not lower the signal. -/
lemma raised_translateFrom (start : Nat) (ds : List TimedDocument) (h : c.raised = true) :
    (c.translateFrom start ds).2.raised = true := by
  induction ds generalizing c start with
  | nil => exact h
  | cons d ds ih => exact ih (start + 1) (raised_run (some start) d h)

/-- Only a reset lowers the signal. -/
lemma raised_session {qs : List Request} (hqs : Request.reset ∉ qs) (h : c.raised = true) :
    (c.session qs).2.raised = true := by
  induction qs generalizing c with
  | nil => exact h
  | cons q qs ih =>
    rw [List.mem_cons, not_or] at hqs
    refine ih hqs.2 ?_
    cases q with
    | translate d => exact raised_run none d h
    | batch ds => exact raised_translateFrom 0 ds h
    | abort => rfl
    | reset => exact absurd rfl hqs.1
    | isAborted => exact h

/-! ### What a reply depends on -/

/-- Compilers that agree translate alike and agree afterwards. -/
lemma Agrees.run (h : c.Agrees c') (id id' : Log.DocumentId) (d : TimedDocument) :
    (c.run id d).1 = (c'.run id' d).1 ∧ (c.run id d).2.Agrees (c'.run id' d).2 := by
  have hresult : c.settings.translateWith d.text c.raised =
      c'.settings.translateWith d.text c'.raised := by
    rw [h.settings, h.raised]
  exact ⟨congrArg (·.1) hresult, h.settings, congrArg (·.2) hresult⟩

/-- Compilers that agree translate a batch alike and agree afterwards. -/
lemma Agrees.translateFrom (h : c.Agrees c') (start start' : Nat) (ds : List TimedDocument) :
    (c.translateFrom start ds).1 = (c'.translateFrom start' ds).1 ∧
      (c.translateFrom start ds).2.Agrees (c'.translateFrom start' ds).2 := by
  induction ds generalizing c c' start start' with
  | nil => exact ⟨rfl, h⟩
  | cons d ds ih =>
    obtain ⟨hresult, hagree⟩ := h.run (some start) (some start') d
    obtain ⟨hresults, hagrees⟩ := ih hagree (start + 1) (start' + 1)
    exact ⟨congrArg₂ List.cons hresult hresults, hagrees⟩

/-- Compilers that agree reply alike and agree afterwards. -/
lemma Agrees.answer (h : c.Agrees c') (q : Request) :
    (c.answer q).1 = (c'.answer q).1 ∧ (c.answer q).2.Agrees (c'.answer q).2 := by
  cases q with
  | translate d =>
    obtain ⟨hresult, hagree⟩ := h.run none none d
    exact ⟨congrArg Reply.translation hresult, hagree⟩
  | batch ds =>
    obtain ⟨hresults, hagree⟩ := h.translateFrom 0 0 ds
    exact ⟨congrArg Reply.translations hresults, hagree⟩
  | abort => exact ⟨rfl, h.settings, rfl⟩
  | reset => exact ⟨rfl, h.settings, rfl⟩
  | isAborted => exact ⟨congrArg Reply.flag h.raised, h⟩

/-- Compilers that agree reply alike throughout a session. -/
lemma Agrees.session (h : c.Agrees c') (qs : List Request) :
    (c.session qs).1 = (c'.session qs).1 := by
  induction qs generalizing c c' with
  | nil => rfl
  | cons q qs ih =>
    obtain ⟨hreply, hagree⟩ := h.answer q
    exact congrArg₂ List.cons hreply (ih hagree)

/-! ### Moments of a session -/

/-- A session goes on where its beginning ends. -/
lemma session_append (c : Compiler) (qs qs' : List Request) :
    c.session (qs ++ qs') =
      ((c.session qs).1 ++ ((c.session qs).2.session qs').1, ((c.session qs).2.session qs').2) := by
  induction qs generalizing c with
  | nil => rfl
  | cons q qs ih =>
    rw [List.cons_append, session, ih (c.answer q).2]
    rfl

/-- Each request has its reply. -/
lemma length_session (c : Compiler) (qs : List Request) : (c.session qs).1.length = qs.length := by
  induction qs generalizing c with
  | nil => rfl
  | cons q qs ih => exact congrArg Nat.succ (ih (c.answer q).2)

/-- The reply to a request is what the compiler answers that the requests before have left. -/
lemma reply_session (c : Compiler) (before after : List Request) (q : Request) :
    (c.session (before ++ q :: after)).1[before.length]? =
      some ((c.session before).2.answer q).1 := by
  rw [session_append, List.getElem?_append_right (Nat.le_of_eq (length_session c before)),
    length_session, Nat.sub_self]
  rfl

/-- The result of a document of a batch is that of a translation after those before it. -/
lemma result_translateFrom (start : Nat) (ds : List TimedDocument) (h : c.Agrees c') (i : Nat)
    (d : TimedDocument) (hd : ds[i]? = some d) :
    (c.translateFrom start ds).1[i]? =
      some ((c'.session ((ds.take i).map .translate)).2.translate d).1 := by
  induction ds generalizing c c' start i with
  | nil => cases hd
  | cons first ds ih =>
    cases i with
    | zero =>
      cases hd
      exact congrArg some (h.run (some start) none d).1
    | succ i => exact ih (start + 1) (h.run (some start) none first).2 i hd

/-- A batch has a result for each document. -/
lemma length_translateFrom (c : Compiler) (start : Nat) (ds : List TimedDocument) :
    (c.translateFrom start ds).1.length = ds.length := by
  induction ds generalizing c start with
  | nil => rfl
  | cons d ds ih => exact congrArg Nat.succ (ih (c.run (some start) d).2 (start + 1))

/-- A batch leaves what translating its documents one by one leaves. -/
lemma Agrees.translateFrom_session (h : c.Agrees c') (start : Nat) (ds : List TimedDocument) :
    (c.translateFrom start ds).2.Agrees (c'.session (ds.map .translate)).2 := by
  induction ds generalizing c c' start with
  | nil => exact h
  | cons d ds ih => exact ih (h.run (some start) none d).2 (start + 1)

/-- Aborting is all or nothing, and the signal is the only thing that a session carries.

Under any signal, a document with the right root element is aborted if more than its definitions is
asked for and the signal is up when a child of the root is about to start: it was up before the
first of them, or came up while one was drawn that is not the last.  In all other cases the
translation is the one that nobody could have aborted.  The signal of a compiler is the one that its
fonts raise.

In a session, the result of a translation depends on the document, the settings and the signal at
its start alone; a batch takes its documents in turn; a signal that is up stays up until it is
reset; and after a reset a compiler replies as a fresh one does. -/
theorem abort_all_or_nothing (c : Compiler) :
    (∀ (signal : Signal) (text : String) (document : Xml.Document),
      Xml.Document.read text = .ok document → document.root.name = "svg" →
      let n := document.root.childElements.length
      let up (i : Nat) := signal.up (c.settings.asked document.root i)
      ((c.settings.translateUnder signal text).1 = .error .aborted ↔
        c.settings.definitionsOnly = false ∧ ∃ i < n, up i = true) ∧
      ((∃ i < n, up i = true) ↔
        (signal.up [] = true ∧ 0 < n) ∨ ∃ i, i + 1 < n ∧ up i = false ∧ up (i + 1) = true) ∧
      ∃ t, c.settings.translateUnwatched text = .ok t ∧
        ((c.settings.translateUnder signal text).1 ≠ .error .aborted →
          (c.settings.translateUnder signal text).1 = .ok t)) ∧
    (∀ d, ((c.translate d).1, (c.translate d).2.raised) =
      c.settings.translateUnder (c.settings.fonts.signal c.raised) d.text) ∧
    (∀ before d after, (c.session (before ++ .translate d :: after)).1[before.length]? =
      some (.translation (c.settings.translateWith d.text (c.session before).2.raised).1)) ∧
    (∀ before ds after, ∃ results,
      (c.session (before ++ .batch ds :: after)).1[before.length]? = some (.translations results) ∧
      results.length = ds.length ∧
      ∀ i d, ds[i]? = some d → results[i]? = some (c.settings.translateWith d.text
        (c.session (before ++ (ds.take i).map .translate)).2.raised).1) ∧
    (∀ before ds, (c.session (before ++ [.batch ds])).2.raised =
      (c.session (before ++ ds.map .translate)).2.raised) ∧
    (∀ before after, (c.session (before ++ .isAborted :: after)).1[before.length]? =
      some (.flag (c.session before).2.raised)) ∧
    (∀ before, (c.session (before ++ [.abort])).2.raised = true) ∧
    (∀ before after, Request.reset ∉ after → (c.session before).2.raised = true →
      (c.session (before ++ after)).2.raised = true) ∧
    ∀ before after (fresh : Compiler), fresh.settings = c.settings → fresh.raised = false →
      (c.session (before ++ .reset :: after)).1.drop (before.length + 1) =
        (fresh.session after).1 := by
  refine ⟨?_, ?_, ?_, ?_, ?_, ?_, ?_, ?_, ?_⟩
  · intro signal text document hread hroot
    obtain ⟨haborted, hunwatched⟩ := c.settings.translateUnder_of_svg signal hread hroot
    exact ⟨haborted, signal.exists_up_iff (c.settings.asked document.root) _, hunwatched⟩
  · intro d
    rw [← Settings.translateWith_eq_translateUnder]
    rfl
  · intro before d after
    rw [reply_session, answer, translate, run, settings_session]
  · intro before ds after
    refine ⟨_, reply_session c before after (.batch ds), length_translateFrom _ 0 ds, ?_⟩
    intro i d hd
    rw [translateBatch, result_translateFrom 0 ds (.refl _) i d hd, session_append]
    rw [translate, run, settings_session, settings_session]
  · intro before ds
    rw [session_append, session_append]
    exact ((Agrees.refl _).translateFrom_session 0 ds).raised
  · intro before after
    exact reply_session c before after .isAborted
  · intro before
    rw [session_append]
    rfl
  · intro before after hafter hraised
    rw [session_append]
    exact raised_session hafter hraised
  · intro before after fresh hsettings hraised
    have hagree : (c.session before).2.reset.Agrees fresh :=
      ⟨(settings_session c before).trans hsettings.symm, hraised.symm⟩
    rw [session_append, ← length_session c before, ← List.drop_drop, List.drop_left]
    exact hagree.session after

end Compiler

/-- The text of two letters. -/
def Xml.letters : String := "<svg><text>a</text><text>b</text></svg>"

/-- The tree of this text. -/
def Xml.Document.letters : Xml.Document where
  root := ⟨⟨0, none, "svg", []⟩,
    [.element ⟨1, none, "text", []⟩ [.text "a"], .element ⟨2, none, "text", []⟩ [.text "b"]]⟩
  beside := []

namespace Compiler

/-- A compiler with a font that raises the signal whenever it is asked for. -/
def alarmed : Compiler where
  settings := { Settings.initial with fonts := ⟨fun _ => .usual, fun _ => true⟩ }
  raised := false
  diagnosticsLog? := none
  performanceLog? := none

set_option maxRecDepth 20000 in
/-- The first of two letters brings the signal up, so that the second one is never drawn.  Under a
signal that stays down both are drawn.  A signal that is up stays up while it is asked for, and
after a reset the letters are answered as at the start. -/
theorem abort_all_or_nothing_letters :
    Xml.Document.read Xml.letters = .ok .letters ∧ Xml.Document.letters.root.name = "svg" ∧
    (alarmed.settings.translateUnder (alarmed.settings.fonts.signal false) Xml.letters).1 =
      .error .aborted ∧
    (∃ t, alarmed.settings.translateUnwatched Xml.letters = .ok t ∧
      (alarmed.settings.translateUnder (FontSource.usual.signal false) Xml.letters).1 = .ok t) ∧
    (alarmed.session ([.abort] ++ [.isAborted])).2.raised = true ∧
    (alarmed.session ([.abort] ++ .reset :: [.translate ⟨Xml.letters, 0⟩])).1.drop 2 =
      (alarmed.session [.translate ⟨Xml.letters, 0⟩]).1 := by
  have hread : Xml.Document.read Xml.letters = .ok .letters := rfl
  have hup : (alarmed.settings.fonts.signal false).up
      (alarmed.settings.asked Xml.Document.letters.root 1) = true := rfl
  have hdown : ∀ asked, (FontSource.usual.signal false).up asked = false := by
    intro asked
    rw [FontSource.up_signal, Bool.false_or, List.any_eq_false]
    exact fun _ _ => Bool.false_ne_true
  obtain ⟨hone, -, -, -, -, -, hraise, hstays, hfresh⟩ := abort_all_or_nothing alarmed
  obtain ⟨haborted, -⟩ := hone (alarmed.settings.fonts.signal false) Xml.letters .letters hread rfl
  obtain ⟨hquiet, -, t, ht, hdrawn⟩ :=
    hone (FontSource.usual.signal false) Xml.letters .letters hread rfl
  have hgoes : (alarmed.settings.translateUnder (FontSource.usual.signal false) Xml.letters).1 ≠
      .error .aborted := by
    intro h
    obtain ⟨-, i, -, hi⟩ := hquiet.mp h
    exact Bool.false_ne_true ((hdown _).symm.trans hi)
  exact ⟨hread, rfl, haborted.mpr ⟨rfl, 1, by decide, hup⟩, ⟨t, ht, hdrawn hgoes⟩,
    hstays [.abort] [.isAborted] (by simp) (hraise []), hfresh [.abort] _ alarmed rfl rfl⟩

end Compiler

end SvgDisplayList
