import SvgDisplayList.Proofs.PathData.Meaning
import SvgDisplayList.Proofs.PathData.Turn

/-!
# Where path data is at fault

Up to a fault the reader has read tokens (`PathData.Precedes`), and these can always be completed to
instructions: letters and whole sets of arguments already are instructions (`PathData.Admits`), and
to some of the arguments of a set the others can be added (`Seeks.exists_completion`).  So the first
thing that is wrong with a text is the token behind them (`exists_firstFault`).

An error says where this token is and what was sought there (`ofPathData_fault`).  Its offset counts
bytes, which in front of a fault are as many as the characters.
-/

namespace SvgDisplayList

namespace PathData

/-! ## Tokens in front of a text -/

/-- Tokens are written down in front of a text. -/
inductive Precedes : List Token → List Char → List Char → Prop where
  | nil {rest : List Char} : Precedes [] [] rest
  | cons {gap : List Char} {t : Token} {ts : List Token} {front rest : List Char}
      (hgap : IsGap gap) (hend : t.EndsBefore (front ++ rest)) (htail : Precedes ts front rest) :
      Precedes (t :: ts) (gap ++ (t.chars ++ front)) rest

/-- The letter of a command that a token is. -/
def Token.letter? : Token → Option Char
  | letter k relative => some (k.letter relative)
  | argument _ => none

/-- The letters of commands in a text. -/
def commandLetters (cs : List Char) : List Char := cs.filter fun c => (Command.ofLetter? c).isSome

/-- The letters of commands in two texts. -/
lemma commandLetters_append (cs cs' : List Char) :
    commandLetters (cs ++ cs') = commandLetters cs ++ commandLetters cs' := List.filter_append _ _

/-- A text without letters of commands has none. -/
lemma commandLetters_eq_nil {cs : List Char} (h : ∀ c ∈ cs, Command.ofLetter? c = none) :
    commandLetters cs = [] := List.filter_eq_nil_iff.mpr fun c hc => by simp [h c hc]

/-- A separator is no letter of a command, and of one byte. -/
lemma isSeparator_spec {c : Char} (h : isSeparator c = true) :
    Command.ofLetter? c = none ∧ c.utf8Size = 1 := by
  simp only [isSeparator, Bool.or_eq_true, beq_iff_eq] at h
  rcases h with (((rfl | rfl) | rfl) | rfl) | rfl <;> decide

/-- An argument is made of the characters of numerals. -/
lemma Argument.isNumeral_of_mem (a : Argument) : ∀ c ∈ a.chars, Decimal.IsNumeral c := by
  cases a with
  | number n => exact n.numeral.isNumeral_of_mem
  | flag b =>
    intro c hc
    cases b <;> obtain rfl := List.mem_singleton.mp hc <;> exact .inl (by decide)

/-- A token ends before separators, and before what starts as the text that it ends before. -/
lemma Token.endsBefore_of_head? {t : Token} {rest rest' : List Char} (h : t.EndsBefore rest)
    (hhead : ∀ c ∈ rest'.head?, isSeparator c = true ∨ c ∈ rest.head?) : t.EndsBefore rest' := by
  cases t with
  | letter => trivial
  | argument a =>
    cases a with
    | flag => trivial
    | number n =>
      intro c hc
      rcases hhead c hc with hseparator | hsame
      · exact Numeral.not_goesOnWith_of_isSeparator hseparator
      · exact h c hsame

/-- Arguments are no letters. -/
lemma filterMap_letter?_arguments (as : List Argument) :
    (as.map Token.argument).filterMap Token.letter? = [] := by
  simp [Token.letter?]

namespace Precedes

variable {ts ts' : List Token} {front front' rest : List Char}

/-- Tokens stand behind each other. -/
lemma append (h : Precedes ts front (front' ++ rest)) (h' : Precedes ts' front' rest) :
    Precedes (ts ++ ts') (front ++ front') rest := by
  generalize hbehind : front' ++ rest = behind at h
  induction h with
  | nil => exact h'
  | cons hgap hend _ ih =>
    subst hbehind
    rw [← List.append_assoc] at hend
    rw [List.append_assoc, List.append_assoc]
    exact .cons hgap hend (ih rfl)

/-- Tokens in front of a text go on with whatever is written behind a separator. -/
lemma written (h : Precedes ts front rest) {cs : List Char} (hcs : Written ts' cs)
    (hhead : ∀ c ∈ cs.head?, isSeparator c = true) : Written (ts ++ ts') (front ++ cs) := by
  induction h with
  | nil => exact hcs
  | @cons gap t ts front rest hgap hend _ ih =>
    rw [List.append_assoc, List.append_assoc]
    refine .cons hgap (Token.endsBefore_of_head? hend fun c hc => ?_) ih
    cases front with
    | nil => exact .inl (hhead c hc)
    | cons d front => exact .inr hc

/-- The characters of tokens and of what separates them are of one byte. -/
lemma utf8Size_eq (h : Precedes ts front rest) : ∀ c ∈ front, c.utf8Size = 1 := by
  induction h with
  | nil => intro c hc; cases hc
  | @cons gap t ts front rest hgap _ _ ih =>
    intro c hc
    rcases List.mem_append.mp hc with hc | hc
    · exact (isSeparator_spec (hgap c hc)).2
    · rcases List.mem_append.mp hc with hc | hc
      · cases t with
        | letter k relative =>
          obtain rfl := List.mem_singleton.mp hc
          cases k <;> cases relative <;> decide
        | argument a => exact (isNumeral_spec (a.isNumeral_of_mem c hc)).2.2
      · exact ih c hc

/-- The letters of commands are those of the tokens. -/
lemma commandLetters_eq (h : Precedes ts front rest) :
    commandLetters front = ts.filterMap Token.letter? := by
  induction h with
  | nil => rfl
  | @cons gap t ts front rest hgap _ _ ih =>
    rw [commandLetters_append, commandLetters_append,
      commandLetters_eq_nil fun c hc => (isSeparator_spec (hgap c hc)).1, ih, List.nil_append]
    cases t with
    | letter k relative =>
      simp [Token.chars, Token.letter?, commandLetters, (k.letter_spec relative).2.1]
    | argument a =>
      have hchars : commandLetters a.chars = [] :=
        commandLetters_eq_nil fun c hc => (isNumeral_spec (a.isNumeral_of_mem c hc)).2.1
      rw [List.filterMap_cons_none rfl]
      exact congrArg (· ++ ts.filterMap Token.letter?) hchars

end Precedes

/-- What a cursor moves over stands in front of it. -/
lemma Takes.exists_precedes {as : List Argument} {c c' : Cursor} (h : Takes as c c') :
    ∃ front, c.rest = front ++ c'.rest ∧ c'.offset = c.offset + front.length ∧
      Precedes (as.map .argument) front c'.rest := by
  induction h with
  | nil => exact ⟨[], rfl, rfl, .nil⟩
  | @cons offset gap a as rest c' hgap hend _ ih =>
    obtain ⟨front, hrest, hoffset, hprecedes⟩ := ih
    change rest = front ++ c'.rest at hrest
    subst hrest
    refine ⟨gap ++ (a.chars ++ front), by simp, ?_, .cons hgap hend hprecedes⟩
    rw [hoffset]
    simp only [List.length_append]
    omega

/-- Tokens can be written behind separators. -/
lemma exists_written (ts : List Token) :
    ∃ cs, Written ts cs ∧ ∀ c ∈ cs.head?, isSeparator c = true := by
  induction ts with
  | nil => exact ⟨[], .nil fun c hc => (by cases hc), fun c hc => by cases hc⟩
  | cons t ts ih =>
    obtain ⟨cs, hcs, hhead⟩ := ih
    have hspace : IsGap [' '] := by simp [IsGap, isSeparator]
    have hend : t.EndsBefore cs := by
      refine @Token.endsBefore_of_head? t [] cs ?_ fun c hc => .inl (hhead c hc)
      cases t with
      | letter => trivial
      | argument a =>
        cases a with
        | flag => trivial
        | number n => exact n.numeral.endsBefore_nil
    refine ⟨_, .cons hspace hend hcs, fun c hc => ?_⟩
    cases hc
    rfl

/-! ## Tokens that have been read -/

/-- Tokens behind which the reader expects a letter or arguments. -/
inductive Admits : Expectation → List Token → Prop where
  | start : Admits (.letter true) []
  | letter {is : List Instruction} (hmove : StartsWithMove is) (hne : is ≠ []) :
      Admits (.letter false) (is.flatMap Instruction.tokens)
  | first {is : List Instruction} {k : Command} {relative : Bool} (hmove : StartsWithMove is)
      (hk : is = [] → k = .move) :
      Admits (.arguments k (k.letter relative))
        (is.flatMap Instruction.tokens ++ [.letter k relative])
  | more {is : List Instruction} {i : Instruction} (hmove : StartsWithMove (is ++ [i]))
      (hclose : i.first.command ≠ .close) :
      Admits (.arguments i.first.command.repeated (i.first.command.letter i.relative))
        ((is ++ [i]).flatMap Instruction.tokens)

/-- An instruction with one more set of arguments behind it. -/
def Instruction.extend (i : Instruction) (s : ArgumentSet) (hclose : i.first.command ≠ .close)
    (hs : s.command = i.first.command.repeated) : Instruction where
  relative := i.relative
  first := i.first
  more := i.more ++ [s]
  command_more t ht := by
    rcases List.mem_append.mp ht with ht | ht
    · exact i.command_more t ht
    · rw [List.mem_singleton.mp ht, hs]
  more_of_close h := absurd h hclose

namespace Admits

variable {x : Expectation} {ts : List Token}

/-- With a set of arguments where arguments are expected, the tokens are those of instructions. -/
lemma exists_instruction {s : ArgumentSet} {letter : Char}
    (h : Admits (.arguments s.command letter) ts) :
    ∃ is i, StartsWithMove (is ++ [i]) ∧ letter = i.first.command.letter i.relative ∧
      i.first.command.repeated = s.command.repeated ∧
      (s.command ≠ .close → i.first.command ≠ .close) ∧
      ts ++ s.arguments.map .argument = (is ++ [i]).flatMap Instruction.tokens := by
  generalize hk : s.command = k at h
  cases h with
  | @first is _ relative hmove hempty =>
    subst hk
    refine ⟨is, .single relative s, ?_, rfl, rfl, id, ?_⟩
    · cases is with
      | nil =>
        intro i hi
        cases hi
        exact hempty rfl
      | cons j is => exact hmove
    · simp [Instruction.tokens, Instruction.single, Instruction.sets, Token.ofSets]
  | @more is i hmove hclose =>
    refine ⟨is, i.extend s hclose hk, ?_, rfl, ?_, fun _ => hclose, ?_⟩
    · cases is with
      | nil =>
        intro j hj
        cases hj
        exact hmove i rfl
      | cons j is => exact hmove
    · exact (Command.repeated_repeated _).symm
    · simp [Instruction.tokens, Instruction.extend, Instruction.sets, Token.ofSets]

/-- At the start nothing has been read. -/
lemma eq_nil (h : Admits (.letter true) ts) : ts = [] := by
  cases h
  rfl

/-- Where arguments are expected, the last letter is that of their command. -/
lemma getLast?_letter {k : Command} {letter : Char} (h : Admits (.arguments k letter) ts) :
    (ts.filterMap Token.letter?).getLast? = some letter := by
  cases h with
  | first => simp [Token.letter?]
  | @more is i =>
    have hi : i.tokens.filterMap Token.letter? = [i.first.command.letter i.relative] := by
      simp only [Instruction.tokens, Token.ofSets, List.filterMap_cons, Token.letter?,
        filterMap_letter?_arguments]
    rw [List.flatMap_append, List.filterMap_append, List.flatMap_singleton, hi,
      List.getLast?_concat]

end Admits

/-! ## Runs up to a fault -/

/-- What a turn reads stands in front of the cursor behind it, and leaves what is expected there. -/
lemma Turn.exists_precedes {x y : Expectation × Cursor} (h : Turn x y) {ts : List Token}
    (hadmits : Admits x.1 ts) :
    ∃ ts' front, x.2.rest = front ++ y.2.rest ∧ y.2.offset = x.2.offset + front.length ∧
      Precedes ts' front y.2.rest ∧ Admits y.1 (ts ++ ts') := by
  cases h with
  | @letter first offset gap rest k relative hgap hmove =>
    have hprecedes : Precedes [.letter k relative] (gap ++ ([k.letter relative] ++ [])) rest :=
      .cons hgap trivial .nil
    refine ⟨_, _, by simp, by simp [Nat.add_assoc], hprecedes, ?_⟩
    cases hadmits with
    | start => exact @Admits.first [] k relative (fun i hi => by cases hi) fun _ => hmove rfl
    | letter hstart hne => exact .first hstart fun h => absurd h hne
  | again htakes hclose =>
    obtain ⟨front, hrest, hoffset, hprecedes⟩ := htakes.exists_precedes
    obtain ⟨is, i, hstart, rfl, hrepeated, hi, htokens⟩ := hadmits.exists_instruction
    refine ⟨_, front, hrest, hoffset, hprecedes, ?_⟩
    rw [htokens, ← hrepeated]
    exact .more hstart (hi hclose)
  | last htakes =>
    obtain ⟨front, hrest, hoffset, hprecedes⟩ := htakes.exists_precedes
    obtain ⟨is, i, hstart, -, -, -, htokens⟩ := hadmits.exists_instruction
    refine ⟨_, front, hrest, hoffset, hprecedes, ?_⟩
    rw [htokens]
    exact .letter hstart (by simp)

/-- What has been read stands in front of the cursor. -/
lemma exists_precedes {cs : List Char} {y : Expectation × Cursor}
    (h : Relation.ReflTransGen Turn (.letter true, ⟨0, cs⟩) y) :
    ∃ ts front, cs = front ++ y.2.rest ∧ y.2.offset = front.length ∧
      Precedes ts front y.2.rest ∧ Admits y.1 ts := by
  induction h with
  | refl => exact ⟨[], [], rfl, rfl, .nil, .start⟩
  | tail _ hturn ih =>
    obtain ⟨ts, front, hcs, hoffset, hprecedes, hadmits⟩ := ih
    obtain ⟨ts', front', hrest, hoffset', hprecedes', hadmits'⟩ := hturn.exists_precedes hadmits
    refine ⟨ts ++ ts', front ++ front', ?_, ?_, ?_, hadmits'⟩
    · rw [hcs, hrest, List.append_assoc]
    · rw [hoffset', hoffset, List.length_append]
    · rw [hrest] at hprecedes
      exact hprecedes.append hprecedes'

namespace Seeks

variable {y : Expectation × Cursor} {z : Sought × Cursor}

/-- The first letter is sought at the start. -/
lemma of_start (h : Seeks y z) (hz : z.1 = .letter true) : y.1 = .letter true ∧ z.2 = y.2 := by
  cases h with
  | letter =>
    cases hz
    exact ⟨rfl, rfl⟩
  | argument => cases hz

/-- Arguments are sought where they are expected. -/
lemma of_argument {kind : Kind} {letter : Char} (h : Seeks y z) (hz : z.1 = .argument kind letter) :
    ∃ k, y.1 = .arguments k letter := by
  cases h with
  | letter => cases hz
  | argument =>
    cases hz
    exact ⟨_, rfl⟩

end Seeks

/-- There are arguments of any kinds. -/
lemma exists_arguments_of_kinds (kinds : List Kind) :
    ∃ as : List Argument, as.map Argument.kind = kinds := by
  induction kinds with
  | nil => exact ⟨[], rfl⟩
  | cons kind kinds ih =>
    obtain ⟨as, rfl⟩ := ih
    cases kind with
    | number => exact ⟨.number (digitNumber 0) :: as, rfl⟩
    | flag => exact ⟨.flag false :: as, rfl⟩

/-- Where something is sought, the tokens in front of it can be completed to instructions. -/
lemma Seeks.exists_completion {y : Expectation × Cursor} {z : Sought × Cursor} (h : Seeks y z)
    {ts : List Token} (hadmits : Admits y.1 ts) :
    ∃ (as : List Argument) (front : List Char), y.2.rest = front ++ z.2.rest ∧
      z.2.offset = y.2.offset + front.length ∧ Precedes (as.map Token.argument) front z.2.rest ∧
      ∃ (more : List Token) (is : List Instruction), StartsWithMove is ∧
        ts ++ as.map Token.argument ++ more = is.flatMap Instruction.tokens := by
  cases h with
  | letter =>
    refine ⟨[], [], rfl, rfl, .nil, [], ?_⟩
    cases hadmits with
    | start => exact ⟨[], fun i hi => (by cases hi), rfl⟩
    | @letter is hstart => exact ⟨is, hstart, by simp⟩
  | @argument k letter as kind kinds c c' hkinds htakes =>
    obtain ⟨front, hrest, hoffset, hprecedes⟩ := htakes.exists_precedes
    obtain ⟨missing, hmissing⟩ := exists_arguments_of_kinds (kind :: kinds)
    have hall : (as ++ missing).map Argument.kind = k.kinds := by
      rw [hkinds, List.map_append, hmissing]
    obtain ⟨s, rfl, hs⟩ := Command.exists_argumentSet_of_kinds hall
    obtain ⟨is, i, hstart, -, -, -, htokens⟩ := hadmits.exists_instruction
    refine ⟨as, front, hrest, hoffset, hprecedes, missing.map .argument,
      is ++ [i], hstart, ?_⟩
    rw [← htokens, hs, List.map_append, List.append_assoc]

/-! ## The first fault of a text -/

/-- A text that has not gone wrong yet, in front of a token that is at fault. -/
structure FirstFault (sought : Sought) (before token tail : List Char) (e : PathError) : Prop where
  fault : Fault sought before.length token tail e
  utf8Size_eq : ∀ c ∈ before, c.utf8Size = 1
  completable : ∃ (completion : List Char) (is : List Instruction), StartsWithMove is ∧
    Written (is.flatMap Instruction.tokens) (before ++ completion)
  isGap_of_start : sought = .letter true → IsGap before
  getLast?_letter : ∀ kind letter, sought = .argument kind letter →
    (commandLetters before).getLast? = some letter

/-- A text is refused exactly if the turns of the reader lead to a fault. -/
lemma read_error?_iff {cs : List Char} {e : PathError} :
    (read cs).error? = some e ↔ ∃ y z, Relation.ReflTransGen Turn (.letter true, ⟨0, cs⟩) y ∧
      Seeks y z ∧ Spoils z e :=
  readFrom_error?_iff (x := (.letter true, ⟨0, cs⟩)) (Nat.le_refl _)

namespace Fault

variable {sought : Sought} {offset : Nat} {token tail tail' : List Char} {e : PathError}

/-- Only the first character behind a token at fault matters. -/
lemma congr (h : Fault sought offset token tail e) (hne : token ≠ [])
    (hhead : tail'.head? = tail.head?) : Fault sought offset token tail' e := by
  cases h with
  | noMove hseparator hupper hlower => exact .noMove hseparator hupper hlower
  | noLetter hseparator hletter => exact .noLetter hseparator hletter
  | unknown hletter hk => exact .unknown hletter hk
  | noArgument h =>
    cases h with
    | nothing => exact absurd rfl hne
    | letter h => exact .noArgument (.letter h)
    | misfit h => exact .noArgument (.misfit (h.congr hhead))

/-- A token at fault is a single character, or a numeral that may break off. -/
lemma eq_singleton_or_isPrefix (h : Fault sought offset token tail e) (hne : token ≠ []) :
    (∃ ch, token = [ch] ∧ isSeparator ch = false) ∨ ∃ n : Numeral, token <+: n.chars := by
  cases h with
  | noMove hseparator | noLetter hseparator => exact .inl ⟨_, rfl, hseparator⟩
  | unknown hletter => exact .inl ⟨_, rfl, not_isSeparator_of_isLetter hletter⟩
  | noArgument h =>
    cases h with
    | nothing => exact absurd rfl hne
    | letter h => exact .inl ⟨_, rfl, not_isSeparator_of_isLetter h⟩
    | misfit h => exact h.eq_singleton_or_isPrefix

/-- No character of a token at fault separates. -/
lemma not_isSeparator (h : Fault sought offset token tail e) :
    ∀ ch ∈ token, isSeparator ch = false := by
  intro ch hch
  rcases h.eq_singleton_or_isPrefix (List.ne_nil_of_mem hch) with ⟨c, rfl, hseparator⟩ | ⟨n, hn⟩
  · obtain rfl := List.mem_singleton.mp hch
    exact hseparator
  · exact (isNumeral_spec (n.isNumeral_of_mem ch (hn.subset hch))).1

end Fault

/-- Behind tokens that can be completed to instructions, and separators, the text can be
completed. -/
lemma Precedes.exists_completion {ts more : List Token} {front rest gap : List Char}
    (h : Precedes ts front rest) (hgap : IsGap gap) :
    ∃ completion, Written (ts ++ more) (front ++ gap ++ completion) := by
  obtain ⟨completion, hcompletion, hhead⟩ := exists_written more
  have hgapped : ∀ c ∈ (gap ++ completion).head?, isSeparator c = true := by
    intro c hc
    cases gap with
    | nil => exact hhead c hc
    | cons d gap =>
      cases hc
      exact hgap c List.mem_cons_self
  refine ⟨completion, ?_⟩
  rw [List.append_assoc]
  exact h.written (hcompletion.gap_append hgap) hgapped

/-- A fault is found in every text that is the same up to the first character behind the token. -/
lemma read_error?_of_head? {front gap token tail tail' : List Char} {y : Expectation × Cursor}
    {z : Sought × Cursor} {e : PathError}
    (hpath : Relation.ReflTransGen Turn (.letter true, ⟨0, front ++ z.2.rest⟩) y)
    (hseeks : Seeks y z) (hgap : IsGap gap) (hrest : z.2.rest = gap ++ (token ++ tail))
    (hfault : Fault z.1 (z.2.offset + gap.length) token tail e) (hne : token ≠ [])
    (hhead : tail'.head? = tail.head?) :
    (read (front ++ (gap ++ (token ++ tail')))).error? = some e := by
  have halike := @StartAlike.of_token gap token tail tail' hgap hne hfault.not_isSeparator
  have htwin : Twin (gap ++ (token ++ tail)) (gap ++ (token ++ tail')) z.2
      ⟨z.2.offset, gap ++ (token ++ tail')⟩ := ⟨rfl, [], hrest, rfl⟩
  obtain ⟨d, hd, hseeks'⟩ := halike.exists_seeks hseeks htwin
  obtain ⟨⟨offset, text⟩, ⟨hzero, front', hfront, htext⟩, hpath'⟩ := halike.exists_path hpath hd
  change offset = 0 at hzero
  change front ++ z.2.rest = front' ++ (gap ++ (token ++ tail)) at hfront
  change text = front' ++ (gap ++ (token ++ tail')) at htext
  rw [hrest] at hfront
  obtain rfl : front = front' := List.append_cancel_right hfront
  subst hzero htext
  exact read_error?_iff.mpr ⟨_, _, hpath', hseeks', gap, token, tail', hgap, rfl,
    hfault.congr hne hhead⟩

/-- A text that is refused has a first fault, and this decides the error whatever follows it up to
the first character behind the token. -/
lemma exists_firstFault {cs : List Char} {e : PathError} (h : (read cs).error? = some e) :
    ∃ sought before token tail, cs = before ++ (token ++ tail) ∧
      FirstFault sought before token tail e ∧
      (token ≠ [] → ∀ tail' : List Char, tail'.head? = tail.head? →
        (read (before ++ (token ++ tail'))).error? = some e) := by
  obtain ⟨y, z, hpath, hseeks, gap, token, tail, hgap, hrest, hfault⟩ := read_error?_iff.mp h
  -- `front` is read by whole turns, and `front'` by the turn that fails
  obtain ⟨ts, front, hcs, hoffset, hprecedes, hadmits⟩ := exists_precedes hpath
  obtain ⟨as, front', hrest', hoffset', hprecedes', more, is, hstart, htokens⟩ :=
    hseeks.exists_completion hadmits
  have hread : Precedes (ts ++ as.map .argument) (front ++ front') z.2.rest :=
    (hrest' ▸ hprecedes).append hprecedes'
  obtain rfl : cs = front ++ front' ++ z.2.rest := by rw [hcs, hrest', List.append_assoc]
  have hlength : z.2.offset + gap.length = (front ++ front' ++ gap).length := by
    rw [hoffset', hoffset]
    simp only [List.length_append]
  refine ⟨z.1, front ++ front' ++ gap, token, tail, by simp [hrest], ?_, ?_⟩
  · constructor
    · exact hlength ▸ hfault
    · intro c hc
      rcases List.mem_append.mp hc with hc | hc
      · exact hread.utf8Size_eq c hc
      · exact (isSeparator_spec (hgap c hc)).2
    · obtain ⟨completion, hwritten⟩ := @Precedes.exists_completion _ more _ _ _ hread hgap
      exact ⟨completion, is, hstart, htokens ▸ hwritten⟩
    · intro hsought
      obtain ⟨hfirst, hsame⟩ := hseeks.of_start hsought
      obtain rfl := (hfirst ▸ hadmits).eq_nil
      cases hprecedes
      rw [hsame] at hrest'
      obtain rfl : front' = [] := List.self_eq_append_left.mp hrest'
      exact hgap
    · intro kind letter hsought
      obtain ⟨k, hk⟩ := hseeks.of_argument hsought
      rw [commandLetters_append, commandLetters_eq_nil fun c hc => (isSeparator_spec (hgap c hc)).1,
        List.append_nil, hread.commandLetters_eq, List.filterMap_append,
        filterMap_letter?_arguments, List.append_nil]
      exact (hk ▸ hadmits).getLast?_letter
  · intro hne tail' hhead
    rw [List.append_assoc _ gap]
    exact read_error?_of_head? hpath hseeks hgap hrest hfault hne hhead

/-! ## What an error says -/

end PathData

/-- The offset that an error names. -/
def PathError.offset? : PathError → Option Nat
  | invalidNumber offset | missingCoordinates _ offset | unknownCommand _ offset => some offset
  | missingMoveTo => none

namespace PathData

namespace Fault

variable {sought : Sought} {offset offset' : Nat} {token tail : List Char} {e : PathError}

/-- An error names the offset of the token at fault, but for a missing move. -/
lemma offset?_eq (h : Fault sought offset token tail e) (he : e ≠ .missingMoveTo) :
    e.offset? = some offset := by
  cases h with
  | noMove => exact absurd rfl he
  | noLetter | unknown => rfl
  | noArgument h => cases h <;> rfl

/-- There is no token at fault only at the end of the text, where coordinates are missing. -/
lemma of_nil (h : Fault sought offset [] tail e) :
    tail = [] ∧ ∃ k, e = .missingCoordinates k offset := by
  cases h with
  | noArgument h =>
    cases h with
    | nothing => exact ⟨rfl, _, rfl⟩
    | misfit h =>
      obtain ⟨ch, cs, hnil, -⟩ := h.exists_head
      cases hnil

/-- Coordinates are missing where an argument is sought. -/
lemma of_missingCoordinates {k : Char}
    (h : Fault sought offset token tail (.missingCoordinates k offset')) :
    ∃ kind, sought = .argument kind k := by
  cases h with
  | noArgument h => cases h <;> exact ⟨_, rfl⟩

/-- An unknown command is the token at fault. -/
lemma of_unknownCommand {ch : Char}
    (h : Fault sought offset token tail (.unknownCommand ch offset')) : token = [ch] := by
  cases h with
  | unknown => rfl
  | noArgument h => cases h

/-- A move is missing where the first letter is sought and something else is found. -/
lemma of_missingMoveTo (h : Fault sought offset token tail .missingMoveTo) :
    sought = .letter true ∧ ∃ ch, token = [ch] ∧ isSeparator ch = false ∧ ch ≠ 'M' ∧ ch ≠ 'm' := by
  cases h with
  | noMove hseparator hupper hlower => exact ⟨rfl, _, rfl, hseparator, hupper, hlower⟩
  | noArgument h => cases h

end Fault

/-- A move is missing exactly if the first character that does not separate is not its letter. -/
lemma eq_missingMoveTo_iff {cs : List Char} {e : PathError} (h : (read cs).error? = some e) :
    e = .missingMoveTo ↔ ∃ ch ∈ (cs.dropWhile isSeparator).head?, ch ≠ 'M' ∧ ch ≠ 'm' := by
  constructor
  · rintro rfl
    obtain ⟨sought, before, token, tail, hcs, hfirst, -⟩ := exists_firstFault h
    obtain ⟨hsought, ch, rfl, hseparator, hne⟩ := hfirst.fault.of_missingMoveTo
    have hdrop : cs.dropWhile isSeparator = ch :: tail := by
      rw [hcs]
      refine dropWhile_append_eq (hfirst.isGap_of_start hsought) fun d hd => ?_
      cases hd
      exact hseparator
    exact ⟨ch, by rw [hdrop]; rfl, hne⟩
  · rintro ⟨ch, hch, hupper, hlower⟩
    obtain ⟨tail, htail⟩ := List.head?_eq_some_iff.mp hch
    have hspoils : Spoils (.letter true, ⟨0, cs⟩) .missingMoveTo := by
      refine ⟨cs.takeWhile isSeparator, [ch], tail, fun _ => List.mem_takeWhile_imp, ?_,
        .noMove (head?_dropWhile_eq_false ch hch) hupper hlower⟩
      rw [List.singleton_append, ← htail]
      exact List.takeWhile_append_dropWhile.symm
    have hmove := read_error?_iff.mpr ⟨_, _, .refl, .letter, hspoils⟩
    exact Option.some.inj (h.symm.trans hmove)

/-- Path data is refused exactly if it is not read to its end. -/
lemma ofPathData_eq_error_iff {d : String} {e : PathError} :
    Subpath.ofPathData d = .error e ↔ (read d.toList).error? = some e := by
  unfold Subpath.ofPathData Step.ofPathData Reading.result
  cases (read d.toList).error? with
  | none => simp [Except.map]
  | some e' => simp [Except.map]

/-- A text of characters of one byte has as many bytes as characters. -/
lemma utf8ByteSize_ofList {cs : List Char} (h : ∀ c ∈ cs, c.utf8Size = 1) :
    (String.ofList cs).utf8ByteSize = cs.length := by
  induction cs with
  | nil => rfl
  | cons c cs ih =>
    obtain ⟨hc, hcs⟩ := List.forall_mem_cons.mp h
    rw [String.ofList_cons, String.utf8ByteSize_append, String.utf8ByteSize_singleton, hc, ih hcs,
      List.length_cons, Nat.add_comm]

/-- A text can be completed to path data. -/
def IsCompletable (before : String) : Prop :=
  ∃ completion drawn, Subpath.ofPathData (before ++ completion) = .ok drawn

/-- A token is at fault: it is a single character, or a numeral that may break off, and the text is
refused with the same error whatever stands behind the token, up to the first character there. -/
structure IsOffending (before token tail : String) (e : PathError) : Prop where
  ne_empty : token ≠ ""
  not_isSeparator : ∀ ch ∈ token.toList, isSeparator ch = false
  length_eq_or_isPrefix : token.length = 1 ∨ ∃ n : Numeral, token.toList <+: n.chars
  refused : ∀ tail' : String, tail'.toList.head? = tail.toList.head? →
    Subpath.ofPathData (before ++ (token ++ tail')) = .error e

/-- An error points at the first thing that is wrong with path data.

A move is missing exactly if the first character that does not separate is not its letter.  Every
other error names the offset of a text that can be completed to path data; behind it is a token at
fault, or the end of the text, where coordinates are missing.  The command that misses coordinates
is the last one in front of the offset, and an unknown command is the character at the offset. -/
theorem ofPathData_fault {d : String} {e : PathError} (h : Subpath.ofPathData d = .error e) :
    (e = .missingMoveTo ↔ ∃ ch ∈ (d.toList.dropWhile isSeparator).head?, ch ≠ 'M' ∧ ch ≠ 'm') ∧
    (e ≠ .missingMoveTo → ∃ before after : String, d = before ++ after ∧
      e.offset? = some before.utf8ByteSize ∧ before.utf8ByteSize ≤ d.utf8ByteSize ∧
      (⟨before.utf8ByteSize⟩ : String.Pos.Raw).IsValid d ∧ IsCompletable before ∧
      (after = "" ∧ (∃ k, e = .missingCoordinates k before.utf8ByteSize) ∨
        ∃ token tail, after = token ++ tail ∧ IsOffending before token tail e) ∧
      (∀ k offset, e = .missingCoordinates k offset →
        (commandLetters before.toList).getLast? = some k) ∧
      ∀ ch offset, e = .unknownCommand ch offset → after.toList.head? = some ch) := by
  have hread := ofPathData_eq_error_iff.mp h
  refine ⟨eq_missingMoveTo_iff hread, fun hne => ?_⟩
  obtain ⟨sought, before, token, tail, hcs, hfirst, hrefused⟩ := exists_firstFault hread
  have hd : d = String.ofList before ++ (String.ofList token ++ String.ofList tail) := by
    rw [← String.ofList_append, ← String.ofList_append, ← hcs, String.ofList_toList]
  have hsize := utf8ByteSize_ofList hfirst.utf8Size_eq
  refine ⟨.ofList before, .ofList token ++ .ofList tail, hd, ?_, ?_, ?_, ?_, ?_, ?_, ?_⟩
  · rw [hsize]
    exact hfirst.fault.offset?_eq hne
  · rw [hd, String.utf8ByteSize_append]
    exact Nat.le_add_right _ _
  · exact String.Pos.Raw.isValid_iff_exists_append.mpr ⟨_, _, hd, rfl⟩
  · obtain ⟨completion, is, hstart, hwritten⟩ := hfirst.completable
    refine ⟨.ofList completion, _, ofPathData_iff.mpr ⟨is, hstart, ?_, rfl⟩⟩
    rwa [String.toList_append, String.toList_ofList, String.toList_ofList]
  · by_cases hnil : token = []
    · subst hnil
      obtain ⟨rfl, k, hk⟩ := hfirst.fault.of_nil
      exact .inl ⟨rfl, k, hsize ▸ hk⟩
    · refine .inr ⟨_, _, rfl, ?_, ?_, ?_, ?_⟩
      · intro hempty
        exact hnil (by simpa using congrArg String.toList hempty)
      · rw [String.toList_ofList]
        exact hfirst.fault.not_isSeparator
      · rw [String.length_ofList, String.toList_ofList]
        refine (hfirst.fault.eq_singleton_or_isPrefix hnil).imp_left ?_
        rintro ⟨ch, rfl, -⟩
        rfl
      · intro tail' hhead
        rw [String.toList_ofList] at hhead
        rw [ofPathData_eq_error_iff]
        simpa using hrefused hnil _ hhead
  · rintro k offset rfl
    obtain ⟨kind, hkind⟩ := hfirst.fault.of_missingCoordinates
    rw [String.toList_ofList]
    exact hfirst.getLast?_letter kind k hkind
  · rintro ch offset rfl
    rw [hfirst.fault.of_unknownCommand, String.toList_append, String.toList_ofList]
    rfl

/-- The second number of a line breaks off behind the letter of its exponent. -/
theorem ofPathData_fault_brokenOff :
    Subpath.ofPathData "M0 0 L10 1e" = .error (.invalidNumber 9) ∧
      ∃ before after : String, "M0 0 L10 1e" = before ++ after ∧ before.utf8ByteSize = 9 ∧
        IsCompletable before := by
  have hrefused : Subpath.ofPathData "M0 0 L10 1e" = .error (.invalidNumber 9) :=
    ofPathData_eq_error_iff.mpr (by decide +kernel)
  obtain ⟨-, hfault⟩ := ofPathData_fault hrefused
  obtain ⟨before, after, hd, hoffset, -, -, hcompletable, -⟩ := hfault (by decide)
  exact ⟨hrefused, before, after, hd, (Option.some.inj hoffset).symm, hcompletable⟩

end PathData

end SvgDisplayList
