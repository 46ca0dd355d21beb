import SvgDisplayList.Proofs.PathData.Meaning

/-!
# Letters that are left out

A letter may be followed by several sets of arguments.  Such a text leaves out the letters of all
sets but the first: that of a line behind a move, that of the same command behind every other one.
`PathData.Inserts` puts these letters in, anywhere between the sets that they stand between.

What is written down then are instructions of a single set (`Instruction.split`).  Their steps are
the same, so that the text is read and drawn as before (`ofPathData_inserted`).
-/

namespace SvgDisplayList

namespace PathData

/-! ## Left out letters -/

/-- A token that is written, or a letter that is left out. -/
inductive Mark where
  | written (t : Token)
  | leftOut (k : Command) (relative : Bool)

namespace Mark

/-- The tokens that are written. -/
def tokens : Mark → List Token
  | written t => [t]
  | leftOut .. => []

/-- The token that is written once letters are no longer left out. -/
def token : Mark → Token
  | written t => t
  | leftOut k relative => .letter k relative

/-- The marks of a set of arguments, which are all written. -/
def ofSet (s : ArgumentSet) : List Mark := s.arguments.map fun a => .written (.argument a)

end Mark

namespace Instruction

/-- An instruction with the letters that it leaves out in front of its further sets. -/
def marks (i : Instruction) : List Mark :=
  .written (.letter i.first.command i.relative) :: Mark.ofSet i.first ++
    i.more.flatMap fun s => .leftOut s.command i.relative :: Mark.ofSet s

/-- The instructions of a single set that an instruction stands for. -/
def split (i : Instruction) : List Instruction := i.sets.map (single i.relative)

/-- The tokens of an instruction are those of its marks. -/
lemma flatMap_tokens_marks (i : Instruction) : i.marks.flatMap Mark.tokens = i.tokens := by
  have hset (s : ArgumentSet) : (Mark.ofSet s).flatMap Mark.tokens = s.arguments.map .argument := by
    unfold Mark.ofSet
    rw [List.flatMap_map, List.map_eq_flatMap]
    rfl
  simp only [marks, tokens, Token.ofSets, sets, List.flatMap_cons, List.flatMap_append,
    List.flatMap_assoc, hset, Mark.tokens, List.map_append, List.map_flatMap, List.cons_append,
    List.nil_append]

/-- The tokens of the instructions that an instruction stands for. -/
lemma map_token_marks (i : Instruction) :
    i.marks.map Mark.token = i.split.flatMap Instruction.tokens := by
  have hset (s : ArgumentSet) : (Mark.ofSet s).map Mark.token = s.arguments.map .argument := by
    unfold Mark.ofSet
    rw [List.map_map]
    rfl
  simp only [marks, split, tokens, single, Token.ofSets, sets, List.map_cons, List.map_append,
    List.map_flatMap, hset, Mark.token, List.flatMap_cons, List.flatMap_map, List.flatMap_nil,
    List.append_nil, List.cons_append]

/-- The steps of an instruction are those of the instructions that it stands for. -/
lemma flatMap_steps_split (i : Instruction) : i.split.flatMap Instruction.steps = i.steps := by
  unfold split steps
  rw [List.flatMap_map, List.map_eq_flatMap]
  rfl

end Instruction

/-- A text becomes another one by writing letters that are left out.  A letter is written somewhere
between the arguments in front of it and those behind it. -/
inductive Inserts : List Mark → List Char → List Char → Prop where
  | nil {gap : List Char} (hgap : IsGap gap) : Inserts [] gap gap
  | written {gap : List Char} {t : Token} {ms : List Mark} {rest rest' : List Char}
      (hgap : IsGap gap) (hend : t.EndsBefore rest) (hrest : Inserts ms rest rest') :
      Inserts (.written t :: ms) (gap ++ (t.chars ++ rest)) (gap ++ (t.chars ++ rest'))
  | leftOut {gap : List Char} {k : Command} {relative : Bool} {ms : List Mark}
      {rest rest' : List Char} (hgap : IsGap gap) (hrest : Inserts ms rest rest') :
      Inserts (.leftOut k relative :: ms) (gap ++ rest) (gap ++ k.letter relative :: rest')

/-- A token has a character. -/
lemma Token.chars_ne_nil (t : Token) : t.chars ≠ [] := by
  cases t with
  | letter k relative => exact List.cons_ne_nil _ _
  | argument a => exact List.ne_nil_of_length_pos (Takes.one_le_length_chars a)

namespace Inserts

variable {ms : List Mark} {cs cs' : List Char}

/-- The first text writes the tokens that are written. -/
lemma written_tokens (h : Inserts ms cs cs') : Written (ms.flatMap Mark.tokens) cs := by
  induction h with
  | nil hgap => exact .nil hgap
  | written hgap hend _ ih => exact .cons hgap hend ih
  | leftOut hgap _ ih => exact ih.gap_append hgap

/-- The second text begins as the first one does, or with the letter of a command. -/
lemma head?_eq (h : Inserts ms cs cs') :
    cs'.head? = cs.head? ∨ ∃ k relative, cs'.head? = some (Command.letter k relative) := by
  cases h with
  | nil => exact Or.inl rfl
  | @written gap t =>
    obtain ⟨c, chars, hchars⟩ := List.exists_cons_of_ne_nil t.chars_ne_nil
    rw [hchars]
    cases gap <;> exact Or.inl rfl
  | @leftOut gap k relative =>
    cases gap with
    | nil => exact Or.inr ⟨k, relative, rfl⟩
    | cons => exact Or.inl rfl

/-- A token that ends before the first text ends before the second one. -/
lemma endsBefore (h : Inserts ms cs cs') {t : Token} (hend : t.EndsBefore cs) :
    t.EndsBefore cs' := by
  cases t with
  | letter => trivial
  | argument a =>
    cases a with
    | flag => trivial
    | number n =>
      intro c hc
      rcases h.head?_eq with hsame | ⟨k, relative, hletter⟩
      · exact hend c (hsame ▸ hc)
      · obtain rfl : k.letter relative = c := Option.some.inj (hletter.symm.trans hc)
        exact n.numeral.not_goesOnWith_letter k relative

/-- The second text writes the letters too. -/
lemma written_marks (h : Inserts ms cs cs') : Written (ms.map Mark.token) cs' := by
  induction h with
  | nil hgap => exact .nil hgap
  | written hgap hend hrest ih => exact .cons hgap (hrest.endsBefore hend) ih
  | leftOut hgap _ ih => exact .cons hgap trivial ih

end Inserts

/-- The letters that a text leaves out can be written. -/
lemma exists_inserts {ms : List Mark} {cs : List Char} (h : Written (ms.flatMap Mark.tokens) cs) :
    ∃ cs', Inserts ms cs cs' := by
  induction ms generalizing cs with
  | nil => exact ⟨cs, .nil (Written.nil_iff.mp h)⟩
  | cons m ms ih =>
    cases m with
    | written t =>
      cases h with
      | @cons gap _ _ rest hgap hend hrest =>
        obtain ⟨rest', hinserts⟩ := ih hrest
        exact ⟨gap ++ (t.chars ++ rest'), .written hgap hend hinserts⟩
    | leftOut k relative =>
      obtain ⟨rest', hinserts⟩ := ih h
      have hnone : IsGap [] := fun c hc => by cases hc
      exact ⟨[] ++ k.letter relative :: rest', .leftOut hnone hinserts⟩

/-! ## Path data with all its letters -/

/-- A text is another one with the letters written that are left out in front of further sets of
arguments. -/
def IsInserted (d d' : String) : Prop :=
  ∃ is : List Instruction, StartsWithMove is ∧
    Inserts (is.flatMap Instruction.marks) d.toList d'.toList

/-- The tokens of instructions are those of their marks. -/
lemma tokens_marks (is : List Instruction) :
    (is.flatMap Instruction.marks).flatMap Mark.tokens = is.flatMap Instruction.tokens := by
  simp only [List.flatMap_assoc, Instruction.flatMap_tokens_marks]

/-- Both texts are read, as the same steps. -/
lemma IsInserted.exists_steps {d d' : String} (h : IsInserted d d') :
    ∃ steps, Step.ofPathData d = .ok steps ∧ Step.ofPathData d' = .ok steps := by
  obtain ⟨is, hmove, hinserts⟩ := h
  have hmarks : (is.flatMap Instruction.marks).map Mark.token =
      (is.flatMap Instruction.split).flatMap Instruction.tokens := by
    simp only [List.map_flatMap, List.flatMap_assoc, Instruction.map_token_marks]
  have hsteps : (is.flatMap Instruction.split).flatMap Instruction.steps =
      is.flatMap Instruction.steps := by
    simp only [List.flatMap_assoc, Instruction.flatMap_steps_split]
  have hmove' : StartsWithMove (is.flatMap Instruction.split) := by
    cases is with
    | nil => exact hmove
    | cons i is =>
      intro j hj
      obtain rfl : Instruction.single i.relative i.first = j := Option.some.inj hj
      exact hmove i rfl
  exact ⟨_, ofPathData_steps_iff.mpr ⟨is, hmove, tokens_marks is ▸ hinserts.written_tokens, rfl⟩,
    ofPathData_steps_iff.mpr ⟨_, hmove', hmarks ▸ hinserts.written_marks, hsteps.symm⟩⟩

/-- The letters that accepted path data leaves out can be written, and wherever they are written,
the text is accepted and draws the same. -/
theorem ofPathData_inserted {d : String} {drawn : List Subpath}
    (h : Subpath.ofPathData d = .ok drawn) :
    (∃ d', IsInserted d d') ∧ ∀ d', IsInserted d d' → Subpath.ofPathData d' = .ok drawn := by
  constructor
  · obtain ⟨is, hmove, hwritten, -⟩ := ofPathData_iff.mp h
    obtain ⟨cs', hinserts⟩ := exists_inserts (tokens_marks is ▸ hwritten)
    exact ⟨String.ofList cs', is, hmove, by rwa [String.toList_ofList]⟩
  · intro d' hinserted
    obtain ⟨steps, hsteps, hsteps'⟩ := hinserted.exists_steps
    unfold Subpath.ofPathData at h ⊢
    rwa [hsteps', ← hsteps]

/-- A move and two smooth curves that go on from it, with a single letter for both. -/
def waves (start first second : Coordinates) : List Instruction :=
  [.single false (.move start),
   { relative := true
     first := .smoothQuadratic first
     more := [.smoothQuadratic second]
     command_more := by simp [ArgumentSet.command, Command.repeated]
     more_of_close := by simp [ArgumentSet.command] }]

/-- A move to `(1, 2)` is followed by curves that go on by `(3, 4)` and by `(5, 6)`.  The letter of
the second curve can be written behind the comma in front of its arguments. -/
lemma isInserted_waves : IsInserted "M1 2t3 4,5 6" "M1 2t3 4,t5 6" := by
  have hnone : IsGap [] := by simp [IsGap]
  have hspace : IsGap [' '] := by simp [IsGap, isSeparator]
  have hcomma : IsGap [','] := by simp [IsGap, isSeparator]
  have hends {n : Number} {c : Char} {rest : List Char} (hc : ¬ n.numeral.GoesOnWith c) :
      (Token.argument (.number n)).EndsBefore (c :: rest) := by
    intro d hd
    cases hd
    exact hc
  have hseparator {d : Fin 10} {c : Char} {rest : List Char} (hc : isSeparator c = true) :
      (Token.argument (.number (digitNumber d))).EndsBefore (c :: rest) :=
    hends (Numeral.not_goesOnWith_of_isSeparator hc)
  have hsix := Inserts.written (t := .argument (.number (digitNumber 6))) hspace
    (digitNumber 6).numeral.endsBefore_nil (.nil hnone)
  have hfive := Inserts.written (t := .argument (.number (digitNumber 5))) hnone
    (hseparator (by decide)) hsix
  have hletter := @Inserts.leftOut _ .smoothQuadratic true _ _ _ hcomma hfive
  have hfour := Inserts.written (t := .argument (.number (digitNumber 4))) hspace
    (hseparator (by decide)) hletter
  have hthree := Inserts.written (t := .argument (.number (digitNumber 3))) hnone
    (hseparator (by decide)) hfour
  have hcurves := Inserts.written (t := .letter .smoothQuadratic true) hnone trivial hthree
  have htwo := Inserts.written (t := .argument (.number (digitNumber 2))) hspace
    (hends ((digitNumber 2).numeral.not_goesOnWith_letter .smoothQuadratic true)) hcurves
  have hone := Inserts.written (t := .argument (.number (digitNumber 1))) hnone
    (hseparator (by decide)) htwo
  refine ⟨waves ⟨digitNumber 1, digitNumber 2⟩ ⟨digitNumber 3, digitNumber 4⟩
    ⟨digitNumber 5, digitNumber 6⟩, fun i hi => ?_,
    Inserts.written (t := .letter .move false) hnone trivial hone⟩
  cases hi
  rfl

/-- The waves are drawn the same with both letters and with one. -/
theorem ofPathData_inserted_waves :
    (read "M1 2t3 4,5 6".toList).steps.length = 3 ∧ IsInserted "M1 2t3 4,5 6" "M1 2t3 4,t5 6" ∧
      Subpath.ofPathData "M1 2t3 4,t5 6" = .ok (Step.draw (read "M1 2t3 4,5 6".toList).steps) :=
  ⟨by decide +kernel, isInserted_waves, (ofPathData_inserted rfl).2 _ isInserted_waves⟩

end PathData

end SvgDisplayList
