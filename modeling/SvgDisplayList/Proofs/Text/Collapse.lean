import Mathlib.Data.List.Chain
import SvgDisplayList.Proofs.Text.Pieces
import SvgDisplayList.Scene.Lettering

/-!
# Collapsed texts

Character data is cut into words, and the words are put together again with single spaces
(`TextCommand.collapse`).  A collapsed text that is not empty is a run of text (`IsRun`): it starts
and ends with a character that is no blank, and its only blanks are spaces of which no two stand
next to each other.
-/

namespace SvgDisplayList

namespace Text

/-- A word is not empty and has no blanks. -/
def IsWord (w : List Char) : Prop := w ≠ [] ∧ ∀ c ∈ w, isBlank c = false

/-- Words are words. -/
lemma isWord_of_mem_words {cs w : List Char} (h : w ∈ words isBlank cs) : IsWord w := by
  obtain ⟨hpieces, hne⟩ := List.mem_filter.mp h
  exact ⟨by simpa using hne, not_of_mem_pieces w hpieces⟩

/-- A text that starts and ends with characters that are no blanks, and in which single spaces are
the only blanks. -/
structure IsRun (cs : List Char) : Prop where
  ne_nil : cs ≠ []
  first : ∀ c ∈ cs.head?, isBlank c = false
  last : ∀ c ∈ cs.getLast?, isBlank c = false
  space : ∀ c ∈ cs, isBlank c = true → c = ' '
  single : cs.IsChain fun a b => ¬ (isBlank a = true ∧ isBlank b = true)

/-- A word is a run. -/
lemma IsWord.isRun {w : List Char} (h : IsWord w) : IsRun w where
  ne_nil := h.1
  first c hc := h.2 c (List.mem_of_mem_head? hc)
  last c hc := h.2 c (List.mem_of_mem_getLast? hc)
  space c hc hblank := by
    rw [h.2 c hc] at hblank
    cases hblank
  single := by
    refine List.isChain_iff_getElem.mpr fun i hi hboth => ?_
    rw [h.2 _ (List.getElem_mem _)] at hboth
    exact absurd hboth.1 (by decide)

/-- A word, a space and a run make a run. -/
lemma IsWord.isRun_append {w cs : List Char} (hw : IsWord w) (h : IsRun cs) :
    IsRun (w ++ ' ' :: cs) where
  ne_nil := by simp
  first c hc := by
    obtain ⟨d, v, rfl⟩ := List.exists_cons_of_ne_nil hw.1
    exact hw.isRun.first c hc
  last c hc := by
    obtain ⟨d, v, rfl⟩ := List.exists_cons_of_ne_nil h.ne_nil
    rw [List.getLast?_append_of_ne_nil _ (by simp), List.getLast?_cons_cons] at hc
    exact h.last c hc
  space c hc hblank := by
    rcases List.mem_append.mp hc with hc | hc
    · exact hw.isRun.space c hc hblank
    · rcases List.mem_cons.mp hc with rfl | hc
      · rfl
      · exact h.space c hc hblank
  single := by
    refine List.isChain_append.mpr ⟨hw.isRun.single, ?_, fun a ha b _ hboth => ?_⟩
    · refine List.isChain_cons.mpr ⟨fun b hb hboth => ?_, h.single⟩
      rw [h.first b hb] at hboth
      exact absurd hboth.2 (by decide)
    · rw [hw.isRun.last a ha] at hboth
      exact absurd hboth.1 (by decide)

/-- Words with single spaces between them make a run. -/
lemma isRun_join {ws : List (List Char)} (hne : ws ≠ []) (h : ∀ w ∈ ws, IsWord w) :
    IsRun (join " " (ws.map String.ofList)).toList := by
  induction ws with
  | nil => exact absurd rfl hne
  | cons w ws ih =>
    have hw := h w List.mem_cons_self
    cases ws with
    | nil =>
      have hjoin : (join " " (List.map String.ofList [w])).toList = w := by simp [join]
      rw [hjoin]
      exact hw.isRun
    | cons v vs =>
      have hrest := ih (by simp) fun u hu => h u (List.mem_cons_of_mem _ hu)
      have hjoin : (join " " (List.map String.ofList (w :: v :: vs))).toList =
          w ++ ' ' :: (join " " (List.map String.ofList (v :: vs))).toList := by
        simp [join]
      rw [hjoin]
      exact hw.isRun_append hrest

end Text

/-- Collapsed character data is a run, unless nothing is left of it. -/
theorem TextCommand.isRun_collapse {cs : List Char} (h : (collapse cs).isEmpty = false) :
    Text.IsRun (collapse cs).toList := by
  unfold collapse at h ⊢
  refine Text.isRun_join (fun hnone => ?_) fun w => Text.isWord_of_mem_words
  rw [hnone] at h
  cases h

end SvgDisplayList
