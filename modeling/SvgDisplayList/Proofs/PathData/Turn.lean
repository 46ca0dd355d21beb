import Mathlib.Logic.Relation
import SvgDisplayList.Proofs.PathData.Misfit

/-!
# The turns of the reader of path data

In one turn the reader reads a letter or a set of arguments (`PathData.Turn`), or it does not find
what it looks for (`PathData.Spoils`), or the text is at its end; there is nothing else
(`exists_turn`).  So the reader ends in a fault exactly if its turns lead to a token that is not
what is sought there (`readFrom_error?_iff`).

Turns look at the text in front of the cursor behind them, and at the first character behind it and
behind its separators.  They go the same way in every text that starts alike there
(`StartAlike.exists_path`).
-/

namespace SvgDisplayList

namespace PathData

/-! ## The kinds of a command's arguments -/

/-- The kinds of the arguments of a command, in order. -/
def Command.kinds : Command → List Kind
  | move | line | smoothQuadratic => [.number, .number]
  | horizontal | vertical => [.number]
  | cubic => [.number, .number, .number, .number, .number, .number]
  | smoothCubic | quadratic => [.number, .number, .number, .number]
  | arc => [.number, .number, .number, .flag, .flag, .number, .number]
  | close => []

section

variable {as : List Argument} {kinds : List Kind}

/-- Where the first kind is that of numbers, the first argument is a number. -/
lemma exists_number_of_kinds (h : as.map Argument.kind = .number :: kinds) :
    ∃ n as', as = .number n :: as' ∧ as'.map Argument.kind = kinds := by
  obtain ⟨a, as', rfl, ha, hkinds⟩ := List.map_eq_cons_iff.mp h
  cases a with
  | number n => exact ⟨n, as', rfl, hkinds⟩
  | flag => cases ha

/-- Where the first kind is that of flags, the first argument is a flag. -/
lemma exists_flag_of_kinds (h : as.map Argument.kind = .flag :: kinds) :
    ∃ b as', as = .flag b :: as' ∧ as'.map Argument.kind = kinds := by
  obtain ⟨a, as', rfl, ha, hkinds⟩ := List.map_eq_cons_iff.mp h
  cases a with
  | number => cases ha
  | flag b => exact ⟨b, as', rfl, hkinds⟩

/-- Where the first two kinds are those of numbers, the first two arguments are coordinates. -/
lemma exists_coordinates_of_kinds (h : as.map Argument.kind = .number :: .number :: kinds) :
    ∃ (p : Coordinates) (as' : List Argument), as = p.arguments ++ as' ∧
      as'.map Argument.kind = kinds := by
  obtain ⟨x, as₁, rfl, h₁⟩ := exists_number_of_kinds h
  obtain ⟨y, as₂, rfl, h₂⟩ := exists_number_of_kinds h₁
  exact ⟨⟨x, y⟩, as₂, rfl, h₂⟩

/-- Arguments of the kinds of a command are a set of arguments of it. -/
lemma Command.exists_argumentSet_of_kinds {k : Command} (h : as.map Argument.kind = k.kinds) :
    ∃ s : ArgumentSet, s.command = k ∧ s.arguments = as := by
  cases k with
  | move =>
    obtain ⟨p, _, rfl, h₁⟩ := exists_coordinates_of_kinds h
    obtain rfl := List.map_eq_nil_iff.mp h₁
    exact ⟨.move p, rfl, (List.append_nil _).symm⟩
  | line =>
    obtain ⟨p, _, rfl, h₁⟩ := exists_coordinates_of_kinds h
    obtain rfl := List.map_eq_nil_iff.mp h₁
    exact ⟨.line p, rfl, (List.append_nil _).symm⟩
  | smoothQuadratic =>
    obtain ⟨p, _, rfl, h₁⟩ := exists_coordinates_of_kinds h
    obtain rfl := List.map_eq_nil_iff.mp h₁
    exact ⟨.smoothQuadratic p, rfl, (List.append_nil _).symm⟩
  | horizontal =>
    obtain ⟨x, _, rfl, h₁⟩ := exists_number_of_kinds h
    obtain rfl := List.map_eq_nil_iff.mp h₁
    exact ⟨.horizontal x, rfl, rfl⟩
  | vertical =>
    obtain ⟨y, _, rfl, h₁⟩ := exists_number_of_kinds h
    obtain rfl := List.map_eq_nil_iff.mp h₁
    exact ⟨.vertical y, rfl, rfl⟩
  | cubic =>
    obtain ⟨p, _, rfl, h₁⟩ := exists_coordinates_of_kinds h
    obtain ⟨q, _, rfl, h₂⟩ := exists_coordinates_of_kinds h₁
    obtain ⟨r, _, rfl, h₃⟩ := exists_coordinates_of_kinds h₂
    obtain rfl := List.map_eq_nil_iff.mp h₃
    exact ⟨.cubic p q r, rfl, by simp [ArgumentSet.arguments]⟩
  | smoothCubic =>
    obtain ⟨q, _, rfl, h₁⟩ := exists_coordinates_of_kinds h
    obtain ⟨r, _, rfl, h₂⟩ := exists_coordinates_of_kinds h₁
    obtain rfl := List.map_eq_nil_iff.mp h₂
    exact ⟨.smoothCubic q r, rfl, by simp [ArgumentSet.arguments]⟩
  | quadratic =>
    obtain ⟨q, _, rfl, h₁⟩ := exists_coordinates_of_kinds h
    obtain ⟨r, _, rfl, h₂⟩ := exists_coordinates_of_kinds h₁
    obtain rfl := List.map_eq_nil_iff.mp h₂
    exact ⟨.quadratic q r, rfl, by simp [ArgumentSet.arguments]⟩
  | arc =>
    obtain ⟨rx, _, rfl, h₁⟩ := exists_number_of_kinds h
    obtain ⟨ry, _, rfl, h₂⟩ := exists_number_of_kinds h₁
    obtain ⟨rotation, _, rfl, h₃⟩ := exists_number_of_kinds h₂
    obtain ⟨large, _, rfl, h₄⟩ := exists_flag_of_kinds h₃
    obtain ⟨sweep, _, rfl, h₅⟩ := exists_flag_of_kinds h₄
    obtain ⟨p, _, rfl, h₆⟩ := exists_coordinates_of_kinds h₅
    obtain rfl := List.map_eq_nil_iff.mp h₆
    exact ⟨.arc rx ry rotation large sweep p, rfl, by simp [ArgumentSet.arguments]⟩
  | close =>
    obtain rfl := List.map_eq_nil_iff.mp h
    exact ⟨.close, rfl, rfl⟩

end

namespace Cursor

variable {letter : Char} {c c' : Cursor} {kind : Kind} {kinds : List Kind} {e : PathError}

/-- The cursor behind arguments of some kinds. -/
def behindAll (letter : Char) (c : Cursor) (kinds : List Kind) : Except PathError Cursor :=
  kinds.foldlM (fun c => c.behind letter) c

/-- The cursor behind a set of arguments is that behind arguments of their kinds. -/
lemma map_arguments (k : Command) :
    (·.2) <$> k.arguments letter c = c.behindAll letter k.kinds := by
  cases k with
  | close => rfl
  | _ => simp [Command.arguments, Command.kinds, behindAll, behind, pair]

/-- A cursor is behind an argument exactly if it has moved over one of the kind. -/
lemma behind_eq_ok_iff :
    c.behind letter kind = .ok c' ↔ ∃ a : Argument, a.kind = kind ∧ Takes [a] c c' := by
  have hmap {α : Type} {x : Except PathError (α × Cursor)} :
      (·.2) <$> x = .ok c' ↔ ∃ v, x = .ok (v, c') := by
    cases x with
    | error e => simp
    | ok r => simp [Prod.ext_iff]
  cases kind with
  | number =>
    unfold behind
    rw [hmap]
    constructor
    · rintro ⟨x, hx⟩
      obtain ⟨n, -, hn⟩ := number_eq_ok_iff.mp hx
      exact ⟨.number n, rfl, hn⟩
    · rintro ⟨a, ha, htakes⟩
      cases a with
      | number n => exact ⟨n.value, number_eq_ok_iff.mpr ⟨n, rfl, htakes⟩⟩
      | flag => cases ha
  | flag =>
    unfold behind
    rw [hmap]
    constructor
    · rintro ⟨b, hb⟩
      exact ⟨.flag b, rfl, flag_eq_ok_iff.mp hb⟩
    · rintro ⟨a, ha, htakes⟩
      cases a with
      | number => cases ha
      | flag b => exact ⟨b, flag_eq_ok_iff.mpr htakes⟩

/-- Arguments are refused exactly if the cursor moves over some of them up to one that is
refused. -/
lemma behindAll_eq_error_iff :
    c.behindAll letter kinds = .error e ↔ ∃ as kind kinds' c',
      kinds = as.map Argument.kind ++ kind :: kinds' ∧ Takes as c c' ∧
        c'.behind letter kind = .error e := by
  induction kinds generalizing c with
  | nil =>
    constructor
    · intro h
      cases h
    · rintro ⟨as, kind, kinds', c', hkinds, -⟩
      cases as <;> cases hkinds
  | cons kind kinds ih =>
    have hcons : c.behindAll letter (kind :: kinds) = .error e ↔
        c.behind letter kind = .error e ∨
          ∃ c₁, c.behind letter kind = .ok c₁ ∧ c₁.behindAll letter kinds = .error e := by
      unfold behindAll
      rw [List.foldlM_cons, bind_eq_error_iff]
    rw [hcons]
    constructor
    · rintro (herror | ⟨c₁, hfirst, hbehind⟩)
      · exact ⟨[], kind, kinds, c, rfl, .nil, herror⟩
      · obtain ⟨a, rfl, ha⟩ := behind_eq_ok_iff.mp hfirst
        obtain ⟨as, kind, kinds', c', rfl, htakes, herror⟩ := ih.mp hbehind
        exact ⟨a :: as, kind, kinds', c', rfl, Takes.cons_iff.mpr ⟨c₁, ha, htakes⟩, herror⟩
    · rintro ⟨as, kind', kinds', c', hkinds, htakes, herror⟩
      cases as with
      | nil =>
        cases hkinds
        cases htakes
        exact .inl herror
      | cons a as =>
        obtain ⟨rfl, rfl⟩ := List.cons.inj hkinds
        obtain ⟨c₁, ha, htail⟩ := Takes.cons_iff.mp htakes
        exact .inr ⟨c₁, behind_eq_ok_iff.mpr ⟨a, rfl, ha⟩,
          ih.mpr ⟨as, kind', kinds', c', rfl, htail, herror⟩⟩

end Cursor

/-- A set of arguments is refused exactly if the cursor moves over some of them up to one that is
refused. -/
theorem Command.arguments_eq_error_iff {k : Command} {letter : Char} {c : Cursor} {e : PathError} :
    k.arguments letter c = .error e ↔ ∃ as kind kinds c',
      k.kinds = as.map Argument.kind ++ kind :: kinds ∧ Takes as c c' ∧
        c'.behind letter kind = .error e := by
  rw [← Cursor.behindAll_eq_error_iff, ← Cursor.map_arguments, map_eq_error_iff]

/-! ## Turns -/

/-- What one turn of the reader does where it goes on: it reads a letter, or a set of arguments that
another set follows, or one that none follows. -/
inductive Turn : Expectation × Cursor → Expectation × Cursor → Prop where
  | letter {first : Bool} {offset : Nat} {gap rest : List Char} {k : Command} {relative : Bool}
      (hgap : IsGap gap) (hmove : first = true → k = .move) :
      Turn (.letter first, ⟨offset, gap ++ k.letter relative :: rest⟩)
        (.arguments k (k.letter relative), ⟨offset + gap.length + 1, rest⟩)
  | again {s : ArgumentSet} {letter : Char} {c c' : Cursor} (htakes : Takes s.arguments c c')
      (hclose : s.command ≠ .close) (hmore : c'.more = true) :
      Turn (.arguments s.command letter, c) (.arguments s.command.repeated letter, c')
  | last {s : ArgumentSet} {letter : Char} {c c' : Cursor} (htakes : Takes s.arguments c c')
      (hmore : s.command ≠ .close → c'.more = false) :
      Turn (.arguments s.command letter, c) (.letter false, c')

/-- What the reader looks for at a token. -/
inductive Sought where
  | letter (first : Bool)
  | argument (kind : Kind) (letter : Char)

/-- What a turn looks for: a letter, or the next argument behind those that have been read. -/
inductive Seeks : Expectation × Cursor → Sought × Cursor → Prop where
  | letter {first : Bool} {c : Cursor} : Seeks (.letter first, c) (.letter first, c)
  | argument {k : Command} {letter : Char} {as : List Argument} {kind : Kind} {kinds : List Kind}
      {c c' : Cursor} (hkinds : k.kinds = as.map Argument.kind ++ kind :: kinds)
      (htakes : Takes as c c') : Seeks (.arguments k letter, c) (.argument kind letter, c')

/-- A token is not what is sought, whatever follows it up to the first character behind it. -/
inductive Fault : Sought → Nat → List Char → List Char → PathError → Prop where
  | noMove {offset : Nat} {ch : Char} {tail : List Char} (hseparator : isSeparator ch = false)
      (hupper : ch ≠ 'M') (hlower : ch ≠ 'm') :
      Fault (.letter true) offset [ch] tail .missingMoveTo
  | noLetter {offset : Nat} {ch : Char} {tail : List Char} (hseparator : isSeparator ch = false)
      (hletter : isLetter ch = false) :
      Fault (.letter false) offset [ch] tail (.invalidNumber offset)
  | unknown {offset : Nat} {ch : Char} {tail : List Char} (hletter : isLetter ch = true)
      (hk : Command.ofLetter? ch = none) :
      Fault (.letter false) offset [ch] tail (.unknownCommand ch offset)
  | noArgument {kind : Kind} {letter : Char} {offset : Nat} {token tail : List Char}
      {e : PathError} (h : NoArgument kind letter offset token tail e) :
      Fault (.argument kind letter) offset token tail e

/-- The next token of a cursor is not what is sought. -/
def Spoils (x : Sought × Cursor) (e : PathError) : Prop :=
  ∃ gap token tail, IsGap gap ∧ x.2.rest = gap ++ (token ++ tail) ∧
    Fault x.1 (x.2.offset + gap.length) token tail e

section

variable {x y : Expectation × Cursor} {z : Sought × Cursor} {e : PathError}

/-- The letters of a move are the two cases of one letter. -/
lemma ofLetter?_eq_move_iff {ch : Char} :
    Command.ofLetter? ch = some .move ↔ ch = 'M' ∨ ch = 'm' := by
  constructor
  · intro h
    have hch := Command.eq_letter_of_ofLetter? h
    cases hrelative : ch.isLower with
    | false => exact .inl (by rw [hch, hrelative]; rfl)
    | true => exact .inr (by rw [hch, hrelative]; decide)
  · rintro (rfl | rfl) <;> decide

/-- What the reader expects behind a set of arguments. -/
lemma readFrom_arguments {turns : Nat} {s : ArgumentSet} {letter : Char} {c c' : Cursor}
    (htakes : Takes s.arguments c c') :
    (readFrom (turns + 1) (.arguments s.command letter) c).error? =
      (readFrom turns (if s.command ≠ .close && c'.more then .arguments s.command.repeated letter
        else .letter false) c').error? := by
  rw [readFrom, Command.arguments_of_takes s htakes]
  rfl

/-- A turn that goes on leaves the fault to the turns behind it. -/
lemma Turn.error?_eq (h : Turn x y) (turns : Nat) :
    (readFrom (turns + 1) x.1 x.2).error? = (readFrom turns y.1 y.2).error? := by
  cases h with
  | letter hgap hmove => rw [readFrom_letter hgap hmove]
  | again htakes hclose hmore =>
    rw [readFrom_arguments htakes, if_pos (by simp [hclose, hmore])]
  | last htakes hmore =>
    rw [readFrom_arguments htakes, if_neg (by simpa using hmore)]

/-- A turn that does not find what it looks for ends the reading. -/
lemma Seeks.error?_eq (h : Seeks x z) (hspoils : Spoils z e) (turns : Nat) :
    (readFrom (turns + 1) x.1 x.2).error? = some e := by
  cases h with
  | @letter first c =>
    obtain ⟨gap, token, tail, hgap, hrest, hfault⟩ := hspoils
    obtain ⟨offset, text⟩ := c
    change text = gap ++ (token ++ tail) at hrest
    subst hrest
    have hat {ch : Char} (hseparator : isSeparator ch = false) :
        Cursor.atToken ⟨offset, gap ++ ([ch] ++ tail)⟩ = ⟨offset + gap.length, ch :: tail⟩ := by
      refine Cursor.atToken_append _ hgap fun d hd => ?_
      cases hd
      exact hseparator
    cases hfault with
    | @noMove _ ch _ hseparator hupper hlower =>
      rw [readFrom, hat hseparator]
      cases hletter : isLetter ch with
      | false => simp [hletter, Reading.failed]
      | true =>
        cases hk : Command.ofLetter? ch with
        | none => simp [hletter, hk, Reading.failed]
        | some k =>
          have hmove : k ≠ .move := by
            rintro rfl
            exact (ofLetter?_eq_move_iff.mp hk).elim hupper hlower
          simp [hletter, hk, hmove, Reading.failed]
    | noLetter hseparator hletter =>
      rw [readFrom, hat hseparator]
      simp [hletter, Reading.failed]
    | unknown hletter hk =>
      rw [readFrom, hat (not_isSeparator_of_isLetter hletter)]
      simp [hletter, hk, Reading.failed]
  | @argument k letter as kind kinds c c' hkinds htakes =>
    obtain ⟨gap, token, tail, hgap, hrest, hfault⟩ := hspoils
    cases hfault with
    | noArgument hno =>
      have hbehind := Cursor.behind_eq_error_iff.mpr ⟨gap, token, tail, hgap, hrest, hno⟩
      have herror := Command.arguments_eq_error_iff.mpr
        ⟨as, kind, kinds, c', hkinds, htakes, hbehind⟩
      rw [readFrom, herror]
      rfl

/-- A turn goes on, or does not find what it looks for, or finds the end of the text. -/
lemma exists_turn (x : Expectation × Cursor) :
    (∃ y, Turn x y) ∨ (∃ z e, Seeks x z ∧ Spoils z e) ∨
      ∀ turns, (readFrom (turns + 1) x.1 x.2).error? = none := by
  obtain ⟨first | ⟨k, letter⟩, c⟩ := x
  · obtain ⟨gap, cs, hgap, hrest, hnext, hat⟩ := c.exists_atToken
    cases cs with
    | nil =>
      refine .inr (.inr fun turns => ?_)
      rw [readFrom, hat]
      rfl
    | cons ch rest =>
      have hseparator := hnext ch rfl
      by_cases hcommand : ∃ k, Command.ofLetter? ch = some k ∧ (first = true → k = .move)
      · obtain ⟨k, hk, hmove⟩ := hcommand
        obtain ⟨offset, text⟩ := c
        change text = gap ++ ch :: rest at hrest
        rw [hrest, Command.eq_letter_of_ofLetter? hk]
        exact .inl ⟨_, .letter hgap hmove⟩
      · have hfault : ∃ e, Fault (.letter first) (c.offset + gap.length) [ch] rest e := by
          cases first with
          | true =>
            have hmove : ¬ (ch = 'M' ∨ ch = 'm') := fun h =>
              hcommand ⟨.move, ofLetter?_eq_move_iff.mpr h, fun _ => rfl⟩
            exact ⟨_, .noMove hseparator (not_or.mp hmove).1 (not_or.mp hmove).2⟩
          | false =>
            cases hletter : isLetter ch with
            | false => exact ⟨_, .noLetter hseparator hletter⟩
            | true =>
              have hnone : Command.ofLetter? ch = none := Option.eq_none_iff_forall_ne_some.mpr
                fun k hk => hcommand ⟨k, hk, fun h => by cases h⟩
              exact ⟨_, .unknown hletter hnone⟩
        obtain ⟨e, hfault⟩ := hfault
        exact .inr (.inl ⟨_, e, .letter, gap, [ch], rest, hgap, hrest, hfault⟩)
  · cases harguments : k.arguments letter c with
    | error e =>
      obtain ⟨as, kind, kinds, c', hkinds, htakes, hbehind⟩ :=
        Command.arguments_eq_error_iff.mp harguments
      obtain ⟨gap, token, tail, hgap, hrest, hno⟩ := Cursor.behind_eq_error_iff.mp hbehind
      exact .inr (.inl ⟨(.argument kind letter, c'), e, .argument hkinds htakes, gap, token, tail,
        hgap, hrest, .noArgument hno⟩)
    | ok r =>
      obtain ⟨motion, c'⟩ := r
      obtain ⟨s, rfl, -, htakes⟩ := Command.arguments_eq_ok_iff.mp harguments
      by_cases hmore : s.command ≠ .close ∧ c'.more = true
      · exact .inl ⟨_, .again htakes hmore.1 hmore.2⟩
      · exact .inl ⟨_, .last htakes fun hclose => by simpa [hclose] using hmore⟩

/-! ## Runs -/

/-- The turns that may be left. -/
def remaining : Expectation × Cursor → Nat
  | (.letter _, c) => 2 * c.rest.length + 1
  | (.arguments .., c) => 2 * c.rest.length + 2

/-- A turn that goes on leaves fewer turns. -/
lemma Turn.remaining_lt (h : Turn x y) : remaining y < remaining x := by
  cases h with
  | letter =>
    simp only [remaining, List.length_append, List.length_cons]
    omega
  | @again s _ c c' htakes hclose =>
    obtain ⟨n, as, has⟩ := s.exists_number hclose
    have hlength := htakes.length_le
    rw [has, List.length_cons] at hlength
    simp only [remaining]
    omega
  | last htakes =>
    have hlength := htakes.length_le
    simp only [remaining]
    omega

/-- With turns enough, the reader ends in a fault exactly if its turns lead to one. -/
theorem readFrom_error?_iff {turns : Nat} (hturns : remaining x ≤ turns) :
    (readFrom turns x.1 x.2).error? = some e ↔
      ∃ y z, Relation.ReflTransGen Turn x y ∧ Seeks y z ∧ Spoils z e := by
  constructor
  · intro h
    clear hturns
    induction turns generalizing x with
    | zero => cases h
    | succ turns ih =>
      rcases exists_turn x with ⟨y, hturn⟩ | ⟨z, e', hseeks, hspoils⟩ | hdone
      · rw [hturn.error?_eq] at h
        obtain ⟨y', z, hpath, hfault⟩ := ih h
        exact ⟨y', z, .head hturn hpath, hfault⟩
      · rw [hseeks.error?_eq hspoils] at h
        cases h
        exact ⟨x, z, .refl, hseeks, hspoils⟩
      · rw [hdone] at h
        cases h
  · rintro ⟨y, z, hpath, hseeks, hspoils⟩
    induction hpath using Relation.ReflTransGen.head_induction_on generalizing turns with
    | refl =>
      obtain ⟨turns, rfl⟩ : ∃ n, turns = n + 1 := by
        refine Nat.exists_eq_add_one.mpr (Nat.lt_of_lt_of_le ?_ hturns)
        unfold remaining
        split <;> omega
      exact hseeks.error?_eq hspoils turns
    | head hturn _ ih =>
      have hlt := hturn.remaining_lt
      obtain ⟨turns, rfl⟩ : ∃ n, turns = n + 1 := Nat.exists_eq_add_one.mpr (by omega)
      rw [hturn.error?_eq]
      exact ih (by omega)

end

/-! ## Texts that go on differently -/

/-- Two texts start with the same character, and so they do behind their first separators. -/
structure StartAlike (cs cs' : List Char) : Prop where
  head?_eq : cs'.head? = cs.head?
  head?_dropWhile_eq : (cs'.dropWhile isSeparator).head? = (cs.dropWhile isSeparator).head?

/-- Two cursors stand at one place of two texts that go on differently somewhere behind it. -/
def Twin (cs cs' : List Char) (c c' : Cursor) : Prop :=
  c'.offset = c.offset ∧ ∃ front, c.rest = front ++ cs ∧ c'.rest = front ++ cs'

namespace StartAlike

variable {cs cs' : List Char}

/-- Texts start alike behind a common front. -/
lemma append (h : StartAlike cs cs') (front : List Char) :
    StartAlike (front ++ cs) (front ++ cs') where
  head?_eq := by rw [List.head?_append, List.head?_append, h.head?_eq]
  head?_dropWhile_eq := by
    rw [List.dropWhile_append, List.dropWhile_append]
    split_ifs
    · exact h.head?_dropWhile_eq
    · rw [List.head?_append, List.head?_append, h.head?_eq]

/-- Texts start alike if they have the first token in common. -/
lemma of_token {gap token tail tail' : List Char} (hgap : IsGap gap) (hne : token ≠ [])
    (htoken : ∀ ch ∈ token, isSeparator ch = false) :
    StartAlike (gap ++ (token ++ tail)) (gap ++ (token ++ tail')) := by
  obtain ⟨ch, cs, rfl⟩ := List.exists_cons_of_ne_nil hne
  have hnext (rest : List Char) : ∀ d ∈ (ch :: cs ++ rest).head?, isSeparator d = false := by
    intro d hd
    cases hd
    exact htoken ch List.mem_cons_self
  constructor
  · cases gap <;> rfl
  · rw [dropWhile_append_eq hgap (hnext tail), dropWhile_append_eq hgap (hnext tail')]
    rfl

/-- Where texts start alike, the reader expects arguments in both or in none. -/
lemma more_eq {c c' : Cursor} (h : StartAlike c.rest c'.rest) : c'.more = c.more := by
  have hmore (c : Cursor) : c.more = (c.rest.dropWhile isSeparator).head?.any startsNumber := by
    unfold Cursor.more Cursor.atToken Cursor.skip
    cases c.rest.dropWhile isSeparator <;> rfl
  rw [hmore, hmore, h.head?_dropWhile_eq]

/-- A cursor moves over arguments in both texts. -/
lemma exists_takes {as : List Argument} {c c' d' : Cursor} (h : StartAlike cs cs')
    (htakes : Takes as c c') (htwin : Twin cs cs' c' d') :
    ∃ d, Twin cs cs' c d ∧ Takes as d d' := by
  induction htakes with
  | nil => exact ⟨d', htwin, .nil⟩
  | @cons offset gap a as rest c' hgap hend _ ih =>
    obtain ⟨⟨offset', rest'⟩, ⟨hoffset, front, hrest, hrest'⟩, htail⟩ := ih htwin
    subst hoffset hrest hrest'
    refine ⟨⟨offset, gap ++ (a.chars ++ (front ++ cs'))⟩, ⟨rfl, gap ++ (a.chars ++ front), ?_, ?_⟩,
      .cons hgap ?_ htail⟩
    · simp
    · simp
    · cases a with
      | flag => trivial
      | number n =>
        intro ch hch
        exact hend ch ((h.append front).head?_eq ▸ hch)

variable {x y : Expectation × Cursor} {z : Sought × Cursor} {d' : Cursor}

/-- A turn goes on alike in both texts. -/
lemma exists_turn (h : StartAlike cs cs') (hturn : Turn x y) (htwin : Twin cs cs' y.2 d') :
    ∃ d, Twin cs cs' x.2 d ∧ Turn (x.1, d) (y.1, d') := by
  cases hturn with
  | @letter first offset gap rest k relative hgap hmove =>
    obtain ⟨hoffset, front, hrest, hrest'⟩ := htwin
    obtain ⟨offset', rest'⟩ := d'
    change rest = front ++ cs at hrest
    change rest' = front ++ cs' at hrest'
    change offset' = _ at hoffset
    subst hoffset hrest hrest'
    exact ⟨⟨offset, gap ++ k.letter relative :: (front ++ cs')⟩,
      ⟨rfl, gap ++ k.letter relative :: front, by simp, by simp⟩, .letter hgap hmove⟩
  | again htakes hclose hmore =>
    obtain ⟨d, hd, htakes'⟩ := h.exists_takes htakes htwin
    obtain ⟨-, front, hrest, hrest'⟩ := htwin
    have hmore' := more_eq (hrest ▸ hrest' ▸ h.append front)
    exact ⟨d, hd, .again htakes' hclose (hmore'.trans hmore)⟩
  | last htakes hmore =>
    obtain ⟨d, hd, htakes'⟩ := h.exists_takes htakes htwin
    obtain ⟨-, front, hrest, hrest'⟩ := htwin
    have hmore' := more_eq (hrest ▸ hrest' ▸ h.append front)
    exact ⟨d, hd, .last htakes' fun hclose => hmore'.trans (hmore hclose)⟩

/-- Turns lead to the same place of both texts. -/
lemma exists_path (h : StartAlike cs cs') (hpath : Relation.ReflTransGen Turn x y)
    (htwin : Twin cs cs' y.2 d') :
    ∃ d, Twin cs cs' x.2 d ∧ Relation.ReflTransGen Turn (x.1, d) (y.1, d') := by
  induction hpath generalizing d' with
  | refl => exact ⟨d', htwin, .refl⟩
  | tail _ hturn ih =>
    obtain ⟨d₁, hd₁, hturn'⟩ := h.exists_turn hturn htwin
    obtain ⟨d, hd, hpath'⟩ := ih hd₁
    exact ⟨d, hd, hpath'.tail hturn'⟩

/-- A turn looks for the same at the same place of both texts. -/
lemma exists_seeks (h : StartAlike cs cs') (hseeks : Seeks y z) (htwin : Twin cs cs' z.2 d') :
    ∃ d, Twin cs cs' y.2 d ∧ Seeks (y.1, d) (z.1, d') := by
  cases hseeks with
  | letter => exact ⟨d', htwin, .letter⟩
  | argument hkinds htakes =>
    obtain ⟨d, hd, htakes'⟩ := h.exists_takes htakes htwin
    exact ⟨d, hd, .argument hkinds htakes'⟩

end StartAlike

end PathData

end SvgDisplayList
