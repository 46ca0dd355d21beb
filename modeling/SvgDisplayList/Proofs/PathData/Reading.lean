import SvgDisplayList.Proofs.Fallible
import SvgDisplayList.Proofs.PathData.Grammar

/-!
# What the reader of path data accepts

The reader looks one character ahead, and a list of instructions says what it may find there.  A
cursor that reads arguments moves over their characters (`PathData.Takes`); a set of arguments is
read exactly if the cursor can move over it (`Command.arguments_eq_ok_iff`), and behind it the
reader goes on with another set exactly if an argument follows (`Written.more_iff`).  So the reader
ends without a fault exactly if the text writes down instructions, and has then read their steps
(`readFrom_eq_iff`).
-/

namespace SvgDisplayList

namespace PathData

/-! ## Moving over arguments -/

/-- A cursor moves over arguments, with separators before each, and each ends where it stands. -/
inductive Takes : List Argument → Cursor → Cursor → Prop where
  | nil {c : Cursor} : Takes [] c c
  | cons {offset : Nat} {gap : List Char} {a : Argument} {as : List Argument} {rest : List Char}
      {c : Cursor} (hgap : IsGap gap) (hend : a.EndsBefore rest)
      (htail : Takes as ⟨offset + gap.length + a.chars.length, rest⟩ c) :
      Takes (a :: as) ⟨offset, gap ++ (a.chars ++ rest)⟩ c

namespace Takes

variable {as bs : List Argument} {c c' c'' : Cursor}

/-- A cursor moves over arguments one part after the other. -/
lemma append_iff : Takes (as ++ bs) c c'' ↔ ∃ c', Takes as c c' ∧ Takes bs c' c'' := by
  constructor
  · intro h
    induction as generalizing c with
    | nil => exact ⟨c, .nil, h⟩
    | cons a as ih =>
      cases h with
      | cons hgap hend htail =>
        obtain ⟨c', has, hbs⟩ := ih htail
        exact ⟨c', .cons hgap hend has, hbs⟩
  · rintro ⟨c', has, hbs⟩
    induction has with
    | nil => exact hbs
    | cons hgap hend _ ih => exact .cons hgap hend (ih hbs)

/-- A cursor moves over the first argument and then over the others. -/
lemma cons_iff {a : Argument} :
    Takes (a :: as) c c'' ↔ ∃ c', Takes [a] c c' ∧ Takes as c' c'' := by
  rw [← List.singleton_append, append_iff]

/-- An argument has a character. -/
lemma one_le_length_chars (a : Argument) : 1 ≤ a.chars.length := by
  cases a with
  | number n =>
    obtain ⟨ch, cs, hcs, -⟩ := n.numeral.startsNumber_head? []
    rw [List.append_nil] at hcs
    change 1 ≤ n.numeral.chars.length
    simp [hcs]
  | flag value => cases value <;> exact Nat.le_refl 1

/-- A cursor consumes a character for each argument. -/
lemma length_le (h : Takes as c c') : c'.rest.length + as.length ≤ c.rest.length := by
  induction h with
  | nil => exact Nat.le_refl _
  | @cons _ _ a _ _ _ _ _ _ ih =>
    have hone := one_le_length_chars a
    simp only [List.length_cons, List.length_append] at ih ⊢
    omega

end Takes

/-! ## Numbers and flags -/

namespace Cursor

/-- Separators are passed up to the next character that is none. -/
lemma atToken_append (offset : Nat) {gap cs : List Char} (hgap : IsGap gap)
    (hcs : ∀ ch ∈ cs.head?, isSeparator ch = false) :
    atToken ⟨offset, gap ++ cs⟩ = ⟨offset + gap.length, cs⟩ := by
  unfold atToken skip
  rw [takeWhile_append_eq hgap hcs, dropWhile_append_eq hgap hcs]

/-- Behind nothing but separators there is no token. -/
lemma atToken_gap (offset : Nat) {gap : List Char} (hgap : IsGap gap) :
    atToken ⟨offset, gap⟩ = ⟨offset + gap.length, []⟩ := by
  have hnext : ∀ ch ∈ ([] : List Char).head?, isSeparator ch = false := by
    intro ch hch
    cases hch
  have happend := atToken_append offset hgap hnext
  rwa [List.append_nil] at happend

/-- Separators stand between a cursor and its next token. -/
lemma exists_atToken (c : Cursor) : ∃ gap cs, IsGap gap ∧ c.rest = gap ++ cs ∧
    (∀ ch ∈ cs.head?, isSeparator ch = false) ∧ c.atToken = ⟨c.offset + gap.length, cs⟩ :=
  ⟨c.rest.takeWhile isSeparator, c.rest.dropWhile isSeparator, fun _ => List.mem_takeWhile_imp,
    List.takeWhile_append_dropWhile.symm, head?_dropWhile_eq_false, rfl⟩

end Cursor

/-- What a number may start with is neither a separator nor a letter. -/
lemma startsNumber_spec {ch : Char} (h : startsNumber ch = true) :
    isLetter ch = false ∧ isSeparator ch = false := by
  simp only [startsNumber, Bool.or_eq_true, beq_iff_eq] at h
  rcases h with ((hdigit | rfl) | rfl) | rfl
  · exact isDigit_spec hdigit
  all_goals exact ⟨by decide, by decide⟩

/-- An argument starts as a number does. -/
lemma Argument.startsNumber_head? (a : Argument) (rest : List Char) :
    ∃ ch cs, a.chars ++ rest = ch :: cs ∧ startsNumber ch = true := by
  cases a with
  | number n => exact n.numeral.startsNumber_head? rest
  | flag value => cases value <;> exact ⟨_, _, rfl, by decide⟩

/-- The next token of a cursor that moves over an argument is that argument. -/
lemma Cursor.atToken_argument (offset : Nat) {gap : List Char} (rest : List Char) (a : Argument)
    (hgap : IsGap gap) :
    atToken ⟨offset, gap ++ (a.chars ++ rest)⟩ = ⟨offset + gap.length, a.chars ++ rest⟩ := by
  obtain ⟨ch, cs, hcs, hstart⟩ := a.startsNumber_head? rest
  refine atToken_append _ hgap fun d hd => ?_
  rw [hcs] at hd
  cases hd
  exact (startsNumber_spec hstart).2

/-- A number is read exactly if the cursor moves over it. -/
theorem Cursor.number_eq_ok_iff {letter : Char} {c c' : Cursor} {x : Float32} :
    c.number letter = .ok (x, c') ↔ ∃ n : Number, x = n.value ∧ Takes [.number n] c c' := by
  constructor
  · intro h
    obtain ⟨offset, text⟩ := c
    obtain ⟨gap, cs, hgap, hrest, -, hat⟩ := exists_atToken ⟨offset, text⟩
    change text = gap ++ cs at hrest
    subst hrest
    unfold number at h
    rw [hat] at h
    dsimp only at h
    split at h
    · cases h
    split_ifs at h
    split at h
    · cases h
    rename_i token rest hnumeral
    split at h
    · cases h
    rename_i y hfinite
    cases h
    obtain ⟨n, rfl, hcs, hend⟩ := numeral?_eq_some_iff.mp hnumeral
    rw [n.finiteNumber?_chars] at hfinite
    split_ifs at hfinite with hn
    cases hfinite
    rw [hcs]
    exact ⟨⟨n, hn⟩, rfl, .cons hgap hend .nil⟩
  · rintro ⟨n, rfl, h⟩
    cases h with
    | @cons offset gap a as rest c hgap hend htail =>
      cases htail
      obtain ⟨ch, cs, hcs, hstart⟩ := (Argument.number n).startsNumber_head? rest
      have hnumeral : numeral? (ch :: cs) = some (n.numeral.chars, rest) :=
        hcs ▸ n.numeral.numeral?_append hend
      have hvalue : finiteNumber? n.numeral.chars = some n.value := by
        rw [n.numeral.finiteNumber?_chars, if_pos n.isFinite]
        rfl
      unfold number
      rw [atToken_argument _ _ _ hgap, hcs]
      simp only [(startsNumber_spec hstart).1, hnumeral, hvalue, Bool.false_eq_true, if_false]
      rfl

/-- A flag is read exactly if the cursor moves over it. -/
theorem Cursor.flag_eq_ok_iff {letter : Char} {c c' : Cursor} {b : Bool} :
    c.flag letter = .ok (b, c') ↔ Takes [.flag b] c c' := by
  constructor
  · intro h
    obtain ⟨offset, text⟩ := c
    obtain ⟨gap, cs, hgap, hrest, -, hat⟩ := exists_atToken ⟨offset, text⟩
    change text = gap ++ cs at hrest
    subst hrest
    unfold flag at h
    rw [hat] at h
    dsimp only at h
    split at h
    · cases h
    · cases h
      exact .cons (a := .flag false) hgap trivial .nil
    · cases h
      exact .cons (a := .flag true) hgap trivial .nil
    · split_ifs at h
  · intro h
    cases h with
    | cons hgap hend htail =>
      cases htail
      unfold flag
      rw [atToken_argument _ _ _ hgap]
      cases b <;> rfl

/-! ## Sets of arguments -/

namespace Cursor

variable {α : Type} {letter : Char} {c : Cursor} {r : α}

/-- Reading that begins with a number. -/
lemma number_bind_eq_ok_iff {f : Float32 × Cursor → Except PathError α} :
    c.number letter >>= f = .ok r ↔
      ∃ (n : Number) (c' : Cursor), Takes [.number n] c c' ∧ f (n.value, c') = .ok r := by
  rw [bind_eq_ok_iff]
  constructor
  · rintro ⟨⟨x, c'⟩, hx, h⟩
    obtain ⟨n, rfl, hn⟩ := number_eq_ok_iff.mp hx
    exact ⟨n, c', hn, h⟩
  · rintro ⟨n, c', hn, h⟩
    exact ⟨(n.value, c'), number_eq_ok_iff.mpr ⟨n, rfl, hn⟩, h⟩

/-- Reading that begins with a flag. -/
lemma flag_bind_eq_ok_iff {f : Bool × Cursor → Except PathError α} :
    c.flag letter >>= f = .ok r ↔
      ∃ (b : Bool) (c' : Cursor), Takes [.flag b] c c' ∧ f (b, c') = .ok r := by
  rw [bind_eq_ok_iff]
  constructor
  · rintro ⟨⟨b, c'⟩, hb, h⟩
    exact ⟨b, c', flag_eq_ok_iff.mp hb, h⟩
  · rintro ⟨b, c', hb, h⟩
    exact ⟨(b, c'), flag_eq_ok_iff.mpr hb, h⟩

/-- Reading that begins with a pair. -/
lemma pair_bind_eq_ok_iff {f : Point × Cursor → Except PathError α} :
    c.pair letter >>= f = .ok r ↔
      ∃ (p : Coordinates) (c' : Cursor), Takes p.arguments c c' ∧ f (p.point, c') = .ok r := by
  have hpair : c.pair letter >>= f = c.number letter >>= fun x =>
      x.2.number letter >>= fun y => f (⟨x.1, y.1⟩, y.2) := by
    unfold pair
    rw [bind_assoc]
    congr 1
    funext x
    rw [bind_assoc]
    rfl
  rw [hpair, number_bind_eq_ok_iff]
  constructor
  · rintro ⟨m, c₁, hm, h⟩
    obtain ⟨n, c₂, hn, h⟩ := number_bind_eq_ok_iff.mp h
    exact ⟨⟨m, n⟩, c₂, Takes.cons_iff.mpr ⟨c₁, hm, hn⟩, h⟩
  · rintro ⟨p, c₂, hp, h⟩
    obtain ⟨c₁, hx, hy⟩ := Takes.cons_iff.mp hp
    exact ⟨p.x, c₁, hx, number_bind_eq_ok_iff.mpr ⟨p.y, c₂, hy, h⟩⟩

end Cursor

namespace Command

open Cursor

variable {k : Command} {letter : Char} {c c' : Cursor}

/-- What is read as a set of arguments is one of the command, and the cursor has moved over it. -/
lemma exists_argumentSet {m : Motion} (h : k.arguments letter c = .ok (m, c')) :
    ∃ s : ArgumentSet, s.command = k ∧ m = s.motion ∧ Takes s.arguments c c' := by
  cases k with
  | move =>
    obtain ⟨p, c₁, hp, h⟩ := pair_bind_eq_ok_iff.mp h
    cases h
    exact ⟨.move p, rfl, rfl, hp⟩
  | line =>
    obtain ⟨p, c₁, hp, h⟩ := pair_bind_eq_ok_iff.mp h
    cases h
    exact ⟨.line p, rfl, rfl, hp⟩
  | smoothQuadratic =>
    obtain ⟨p, c₁, hp, h⟩ := pair_bind_eq_ok_iff.mp h
    cases h
    exact ⟨.smoothQuadratic p, rfl, rfl, hp⟩
  | horizontal =>
    obtain ⟨n, c₁, hn, h⟩ := number_bind_eq_ok_iff.mp h
    cases h
    exact ⟨.horizontal n, rfl, rfl, hn⟩
  | vertical =>
    obtain ⟨n, c₁, hn, h⟩ := number_bind_eq_ok_iff.mp h
    cases h
    exact ⟨.vertical n, rfl, rfl, hn⟩
  | cubic =>
    obtain ⟨p, c₁, hp, h⟩ := pair_bind_eq_ok_iff.mp h
    obtain ⟨q, c₂, hq, h⟩ := pair_bind_eq_ok_iff.mp h
    obtain ⟨r, c₃, hr, h⟩ := pair_bind_eq_ok_iff.mp h
    cases h
    have hqr : Takes (q.arguments ++ r.arguments) c₁ c' := Takes.append_iff.mpr ⟨c₂, hq, hr⟩
    exact ⟨.cubic p q r, rfl, rfl, Takes.append_iff.mpr ⟨c₁, hp, hqr⟩⟩
  | smoothCubic =>
    obtain ⟨q, c₁, hq, h⟩ := pair_bind_eq_ok_iff.mp h
    obtain ⟨r, c₂, hr, h⟩ := pair_bind_eq_ok_iff.mp h
    cases h
    exact ⟨.smoothCubic q r, rfl, rfl, Takes.append_iff.mpr ⟨c₁, hq, hr⟩⟩
  | quadratic =>
    obtain ⟨q, c₁, hq, h⟩ := pair_bind_eq_ok_iff.mp h
    obtain ⟨r, c₂, hr, h⟩ := pair_bind_eq_ok_iff.mp h
    cases h
    exact ⟨.quadratic q r, rfl, rfl, Takes.append_iff.mpr ⟨c₁, hq, hr⟩⟩
  | arc =>
    obtain ⟨rx, c₁, hrx, h⟩ := number_bind_eq_ok_iff.mp h
    obtain ⟨ry, c₂, hry, h⟩ := number_bind_eq_ok_iff.mp h
    obtain ⟨rotation, c₃, hrotation, h⟩ := number_bind_eq_ok_iff.mp h
    obtain ⟨large, c₄, hlarge, h⟩ := flag_bind_eq_ok_iff.mp h
    obtain ⟨sweep, c₅, hsweep, h⟩ := flag_bind_eq_ok_iff.mp h
    obtain ⟨p, c₆, hp, h⟩ := pair_bind_eq_ok_iff.mp h
    cases h
    have htail := Takes.cons_iff.mpr ⟨c₄, hlarge, Takes.cons_iff.mpr ⟨c₅, hsweep, hp⟩⟩
    have hradii := Takes.cons_iff.mpr ⟨c₂, hry, Takes.cons_iff.mpr ⟨c₃, hrotation, htail⟩⟩
    exact ⟨.arc rx ry rotation large sweep p, rfl, rfl, Takes.cons_iff.mpr ⟨c₁, hrx, hradii⟩⟩
  | close =>
    cases h
    exact ⟨.close, rfl, rfl, .nil⟩

/-- A set of arguments is read where the cursor moves over it. -/
lemma arguments_of_takes (s : ArgumentSet) (h : Takes s.arguments c c') :
    s.command.arguments letter c = .ok (s.motion, c') := by
  cases s with
  | move p | line p | smoothQuadratic p => exact pair_bind_eq_ok_iff.mpr ⟨p, c', h, rfl⟩
  | horizontal n | vertical n => exact number_bind_eq_ok_iff.mpr ⟨n, c', h, rfl⟩
  | cubic p q r =>
    obtain ⟨c₁, hp, hqr⟩ := Takes.append_iff.mp h
    obtain ⟨c₂, hq, hr⟩ := Takes.append_iff.mp hqr
    refine pair_bind_eq_ok_iff.mpr ⟨p, c₁, hp, ?_⟩
    refine pair_bind_eq_ok_iff.mpr ⟨q, c₂, hq, ?_⟩
    exact pair_bind_eq_ok_iff.mpr ⟨r, c', hr, rfl⟩
  | smoothCubic q r | quadratic q r =>
    obtain ⟨c₁, hq, hr⟩ := Takes.append_iff.mp h
    refine pair_bind_eq_ok_iff.mpr ⟨q, c₁, hq, ?_⟩
    exact pair_bind_eq_ok_iff.mpr ⟨r, c', hr, rfl⟩
  | arc rx ry rotation large sweep p =>
    obtain ⟨c₁, hrx, h⟩ := Takes.cons_iff.mp h
    obtain ⟨c₂, hry, h⟩ := Takes.cons_iff.mp h
    obtain ⟨c₃, hrotation, h⟩ := Takes.cons_iff.mp h
    obtain ⟨c₄, hlarge, h⟩ := Takes.cons_iff.mp h
    obtain ⟨c₅, hsweep, hp⟩ := Takes.cons_iff.mp h
    refine number_bind_eq_ok_iff.mpr ⟨rx, c₁, hrx, ?_⟩
    refine number_bind_eq_ok_iff.mpr ⟨ry, c₂, hry, ?_⟩
    refine number_bind_eq_ok_iff.mpr ⟨rotation, c₃, hrotation, ?_⟩
    refine flag_bind_eq_ok_iff.mpr ⟨large, c₄, hlarge, ?_⟩
    refine flag_bind_eq_ok_iff.mpr ⟨sweep, c₅, hsweep, ?_⟩
    exact pair_bind_eq_ok_iff.mpr ⟨p, c', hp, rfl⟩
  | close =>
    cases h
    rfl

/-- A set of arguments is read exactly if the cursor moves over one of the command. -/
theorem arguments_eq_ok_iff {m : Motion} :
    k.arguments letter c = .ok (m, c') ↔
      ∃ s : ArgumentSet, s.command = k ∧ m = s.motion ∧ Takes s.arguments c c' := by
  constructor
  · exact exists_argumentSet
  · rintro ⟨s, rfl, rfl, h⟩
    exact arguments_of_takes s h

/-- The command of a further set is its own. -/
lemma repeated_repeated (k : Command) : k.repeated.repeated = k.repeated := by
  cases k <;> rfl

/-- No command but a close is continued by closing. -/
lemma repeated_ne_close (h : k ≠ .close) : k.repeated ≠ .close := by
  cases k <;> first | exact h | decide

end Command

/-! ## Looking ahead -/

/-- The letter of a command is neither a separator nor the start of a number. -/
lemma Command.letter_lookahead (k : Command) (relative : Bool) :
    isSeparator (k.letter relative) = false ∧ startsNumber (k.letter relative) = false := by
  cases k <;> cases relative <;> decide

namespace Written

variable {ts : List Token} {cs : List Char}

/-- Nothing is written down by separators. -/
lemma nil_iff : Written [] cs ↔ IsGap cs := by
  constructor
  · intro h
    cases h
    assumption
  · exact .nil

/-- Separators in front of a text write nothing down. -/
lemma gap_append {gap : List Char} (hgap : IsGap gap) (h : Written ts cs) :
    Written ts (gap ++ cs) := by
  have happend {gap' : List Char} (hgap' : IsGap gap') : IsGap (gap ++ gap') := fun c hc =>
    (List.mem_append.mp hc).elim (hgap c) (hgap' c)
  cases h with
  | nil hgap' => exact .nil (happend hgap')
  | cons hgap' hend hrest =>
    rw [← List.append_assoc]
    exact .cons (happend hgap') hend hrest

/-- A letter is written down by separators and its character. -/
lemma letter_iff {k : Command} {relative : Bool} :
    Written (.letter k relative :: ts) cs ↔
      ∃ gap rest, IsGap gap ∧ cs = gap ++ k.letter relative :: rest ∧ Written ts rest := by
  constructor
  · intro h
    cases h with
    | @cons gap _ _ rest hgap _ hrest => exact ⟨gap, rest, hgap, rfl, hrest⟩
  · rintro ⟨gap, rest, hgap, rfl, hrest⟩
    exact .cons hgap trivial hrest

/-- Arguments are written down where a cursor can move over them. -/
lemma arguments_iff {as : List Argument} {c : Cursor} :
    Written (as.map .argument ++ ts) c.rest ↔
      ∃ c', Takes as c c' ∧ Written ts c'.rest := by
  constructor
  · intro h
    induction as generalizing c with
    | nil => exact ⟨c, .nil, h⟩
    | cons a as ih =>
      obtain ⟨offset, text⟩ := c
      change Written (.argument a :: (as.map .argument ++ ts)) text at h
      cases h with
      | @cons gap _ _ rest hgap hend hrest =>
        obtain ⟨c', htakes, hts⟩ := @ih ⟨offset + gap.length + a.chars.length, rest⟩ hrest
        exact ⟨c', .cons hgap hend htakes, hts⟩
  · rintro ⟨c', htakes, hts⟩
    induction htakes with
    | nil => exact hts
    | cons hgap hend _ ih => exact .cons hgap hend (ih hts)

/-- The reader expects more arguments exactly if an argument follows. -/
lemma more_iff {c : Cursor} (h : Written ts c.rest) :
    c.more = true ↔ ∃ t ∈ ts.head?, t.isArgument = true := by
  obtain ⟨offset, text⟩ := c
  change Written ts text at h
  cases h with
  | nil hgap =>
    simp [Cursor.more, Cursor.atToken_gap offset hgap]
  | @cons gap t ts rest hgap hend hrest =>
    cases t with
    | letter k relative =>
      have hletter := k.letter_lookahead relative
      have hat : Cursor.atToken ⟨offset, gap ++ k.letter relative :: rest⟩ =
          ⟨offset + gap.length, k.letter relative :: rest⟩ := by
        refine Cursor.atToken_append _ hgap fun ch hch => ?_
        cases hch
        exact hletter.1
      simp [Cursor.more, Token.chars, hat, hletter.2, Token.isArgument]
    | argument a =>
      obtain ⟨ch, cs, hcs, hstart⟩ := a.startsNumber_head? rest
      have hat := Cursor.atToken_argument offset rest a hgap
      rw [hcs] at hat
      simp [Cursor.more, Token.chars, hat, hcs, hstart, Token.isArgument]

end Written

/-! ## Instructions one set at a time -/

namespace Instruction

/-- An instruction of one set of arguments. -/
def single (relative : Bool) (s : ArgumentSet) : Instruction where
  relative := relative
  first := s
  more := []
  command_more := by simp
  more_of_close _ := rfl

/-- An instruction with one more set of arguments at its front. -/
def prepend (s : ArgumentSet) (i : Instruction) (hs : s.command ≠ .close)
    (hi : i.first.command = s.command.repeated) : Instruction where
  relative := i.relative
  first := s
  more := i.sets
  command_more t ht := by
    rcases List.mem_cons.mp ht with rfl | ht
    · exact hi
    · rw [i.command_more t ht, hi, Command.repeated_repeated]
  more_of_close h := absurd h hs

/-- The sets of arguments behind the first one are those of an instruction, if there are any. -/
lemma exists_rest (i : Instruction) :
    i.more = [] ∨ i.first.command ≠ .close ∧ ∃ j : Instruction,
      j.relative = i.relative ∧ j.first.command = i.first.command.repeated ∧ j.sets = i.more := by
  cases hmore : i.more with
  | nil => exact Or.inl rfl
  | cons s more =>
    have hcommand := i.command_more
    rw [hmore] at hcommand
    have hs := hcommand s List.mem_cons_self
    have hclose : i.first.command ≠ .close := by
      intro h
      exact absurd (i.more_of_close h) (by simp [hmore])
    refine Or.inr ⟨hclose, ⟨i.relative, s, more, fun t ht => ?_, fun h => ?_⟩, rfl, hs, rfl⟩
    · rw [hcommand t (List.mem_cons_of_mem s ht), hs, Command.repeated_repeated]
    · exact absurd (hs ▸ h) (Command.repeated_ne_close hclose)

/-- The arguments of further sets begin with a number, so that the reader expects them. -/
lemma isArgument_of_sets (i : Instruction) (h : i.first.command ≠ .close) (ts : List Token) :
    ∃ t ∈ (Token.ofSets i.sets ++ ts).head?, t.isArgument = true := by
  obtain ⟨n, as, has⟩ := i.first.exists_number h
  refine ⟨.argument (.number n), ?_, rfl⟩
  simp [Token.ofSets, sets, has]

end Instruction

/-- The tokens of instructions do not begin with an argument. -/
lemma not_isArgument_flatMap (is : List Instruction) :
    ¬ ∃ t ∈ (is.flatMap Instruction.tokens).head?, t.isArgument = true := by
  rintro ⟨t, ht, harg⟩
  cases is with
  | nil => cases ht
  | cons i is =>
    cases ht
    cases harg

/-! ## The reader -/

/-- What the reader does at a letter of a command. -/
lemma readFrom_letter {turns : Nat} {first : Bool} {offset : Nat} {gap rest : List Char}
    {k : Command} {relative : Bool} (hgap : IsGap gap) (hmove : first = true → k = .move) :
    readFrom (turns + 1) (.letter first) ⟨offset, gap ++ k.letter relative :: rest⟩ =
      readFrom turns (.arguments k (k.letter relative)) ⟨offset + gap.length + 1, rest⟩ := by
  obtain ⟨hletter, hk, -, -⟩ := k.letter_spec relative
  have hat : Cursor.atToken ⟨offset, gap ++ k.letter relative :: rest⟩ =
      ⟨offset + gap.length, k.letter relative :: rest⟩ := by
    refine Cursor.atToken_append _ hgap fun ch hch => ?_
    cases hch
    exact (k.letter_lookahead relative).1
  have hfirst : ¬ (first && decide (k ≠ .move)) = true := by
    simpa using hmove
  rw [readFrom, hat]
  simp only [hletter, hk, hfirst, Bool.not_true, Bool.false_eq_true, if_false]

/-- What the reader does where it expects a letter. -/
lemma readFrom_letter_iff {turns : Nat} {first : Bool} {c : Cursor} {steps : List Step} :
    readFrom (turns + 1) (.letter first) c = ⟨steps, none⟩ ↔
      (IsGap c.rest ∧ steps = []) ∨
        ∃ gap k relative rest, IsGap gap ∧ c.rest = gap ++ Command.letter k relative :: rest ∧
          (first = true → k = .move) ∧
          readFrom turns (.arguments k (k.letter relative)) ⟨c.offset + gap.length + 1, rest⟩ =
            ⟨steps, none⟩ := by
  constructor
  · intro h
    obtain ⟨gap, cs, hgap, hrest, -, hat⟩ := c.exists_atToken
    unfold readFrom at h
    rw [hat] at h
    dsimp only at h
    cases cs with
    | nil =>
      cases h
      rw [List.append_nil] at hrest
      exact Or.inl ⟨hrest ▸ hgap, rfl⟩
    | cons ch rest =>
      dsimp only at h
      by_cases hletter : isLetter ch = true
      · rw [hletter, Bool.not_true, if_neg (by decide)] at h
        cases hk : Command.ofLetter? ch with
        | none =>
          rw [hk] at h
          cases h
        | some k =>
          rw [hk] at h
          dsimp only at h
          split_ifs at h with hmove
          · cases h
          · have hch := Command.eq_letter_of_ofLetter? hk
            refine Or.inr ⟨gap, k, ch.isLower, rest, hgap, by rw [hrest, ← hch], ?_, hch ▸ h⟩
            intro hfirst
            simpa [hfirst] using hmove
      · rw [Bool.not_eq_true] at hletter
        rw [hletter, Bool.not_false, if_pos rfl] at h
        cases h
  · rintro (⟨hgap, rfl⟩ | ⟨gap, k, relative, rest, hgap, hrest, hmove, h⟩)
    · obtain ⟨offset, text⟩ := c
      unfold readFrom
      rw [Cursor.atToken_gap offset hgap]
      rfl
    · obtain ⟨offset, text⟩ := c
      change text = gap ++ k.letter relative :: rest at hrest
      subst hrest
      rw [readFrom_letter hgap hmove]
      exact h

/-- What the reader does where it expects arguments. -/
lemma readFrom_arguments_iff {turns : Nat} {k : Command} {letter : Char} {c : Cursor}
    {steps : List Step} :
    readFrom (turns + 1) (.arguments k letter) c = ⟨steps, none⟩ ↔
      ∃ (s : ArgumentSet) (c' : Cursor) (steps' : List Step), s.command = k ∧
        Takes s.arguments c c' ∧ steps = ⟨letter.isLower, s.motion⟩ :: steps' ∧
        readFrom turns
          (if k ≠ .close ∧ c'.more = true then .arguments k.repeated letter else .letter false) c' =
          ⟨steps', none⟩ := by
  have hnext : ∀ c' : Cursor, (if k ≠ .close && c'.more then
      Expectation.arguments k.repeated letter else .letter false) =
      if k ≠ .close ∧ c'.more = true then .arguments k.repeated letter else .letter false := by
    intro c'
    by_cases hclose : k = .close <;> simp [hclose]
  rw [readFrom]
  constructor
  · intro h
    split at h
    · cases h
    · rename_i motion c' harguments
      obtain ⟨s, hs, rfl, htakes⟩ := Command.arguments_eq_ok_iff.mp harguments
      injection h with hsteps herror
      refine ⟨s, c', _, hs, htakes, hsteps.symm, ?_⟩
      rw [← hnext, ← herror]
  · rintro ⟨s, c', steps', hs, htakes, rfl, h⟩
    rw [Command.arguments_eq_ok_iff.mpr ⟨s, hs, rfl, htakes⟩]
    dsimp only
    rw [hnext, h]
    rfl

/-- With as many turns, instructions are read exactly where they are written down. -/
def ReadsInstructions (turns : Nat) : Prop :=
  ∀ first c steps, 2 * c.rest.length + 1 ≤ turns →
    (readFrom turns (.letter first) c = ⟨steps, none⟩ ↔
      ∃ is : List Instruction, (first = true → StartsWithMove is) ∧
        Written (is.flatMap Instruction.tokens) c.rest ∧ steps = is.flatMap Instruction.steps)

/-- With as many turns, behind a letter its arguments and further instructions are read exactly
where they are written down. -/
def ReadsArguments (turns : Nat) : Prop :=
  ∀ k letter c steps, 2 * c.rest.length + 2 ≤ turns →
    (readFrom turns (.arguments k letter) c = ⟨steps, none⟩ ↔
      ∃ (i : Instruction) (is : List Instruction), i.first.command = k ∧
        i.relative = letter.isLower ∧
        Written (Token.ofSets i.sets ++ is.flatMap Instruction.tokens) c.rest ∧
        steps = i.steps ++ is.flatMap Instruction.steps)

section

variable {turns : Nat}

/-- A letter is followed by its arguments. -/
lemma readsInstructions_succ (ih : ReadsArguments turns) : ReadsInstructions (turns + 1) := by
  intro first c steps hturns
  rw [readFrom_letter_iff]
  constructor
  · rintro (⟨hgap, rfl⟩ | ⟨gap, k, relative, rest, hgap, hrest, hmove, h⟩)
    · exact ⟨[], fun _ i hi => (by cases hi), Written.nil_iff.mpr hgap, rfl⟩
    · have hlength : c.rest.length = gap.length + (rest.length + 1) := by simp [hrest]
      rw [ih _ _ _ _ (by dsimp only; omega)] at h
      obtain ⟨i, is, hi, hrelative, hwritten, rfl⟩ := h
      rw [(k.letter_spec relative).2.2.1] at hrelative
      refine ⟨i :: is, fun hfirst j hj => ?_, ?_, rfl⟩
      · cases hj
        rw [hi, hmove hfirst]
      · have hletter : c.rest = gap ++ i.first.command.letter i.relative :: rest := by
          rw [hrest, hi, hrelative]
        exact Written.letter_iff.mpr ⟨gap, rest, hgap, hletter, hwritten⟩
  · rintro ⟨is, hmove, hwritten, rfl⟩
    cases is with
    | nil => exact Or.inl ⟨Written.nil_iff.mp hwritten, rfl⟩
    | cons i is =>
      have htokens : (i :: is).flatMap Instruction.tokens =
          .letter i.first.command i.relative ::
            (Token.ofSets i.sets ++ is.flatMap Instruction.tokens) := rfl
      rw [htokens] at hwritten
      obtain ⟨gap, rest, hgap, hrest, hwritten⟩ := Written.letter_iff.mp hwritten
      have hlength : c.rest.length = gap.length + (rest.length + 1) := by simp [hrest]
      refine Or.inr ⟨gap, _, _, rest, hgap, hrest, fun hfirst => hmove hfirst i rfl, ?_⟩
      rw [ih _ _ _ _ (by dsimp only; omega)]
      exact ⟨i, is, rfl, (i.first.command.letter_spec i.relative).2.2.1.symm, hwritten, rfl⟩

/-- A set of arguments is followed by another one, or by instructions. -/
lemma readsArguments_succ (ihInstructions : ReadsInstructions turns)
    (ihArguments : ReadsArguments turns) : ReadsArguments (turns + 1) := by
  intro k letter c steps hturns
  rw [readFrom_arguments_iff]
  constructor
  · rintro ⟨s, c', steps', rfl, htakes, rfl, h⟩
    have hlength := htakes.length_le
    split_ifs at h with hmore
    · -- a set of arguments that is not that of a close consumes a character
      obtain ⟨n, as, has⟩ := s.exists_number hmore.1
      rw [has, List.length_cons] at hlength
      rw [ihArguments _ _ _ _ (by omega)] at h
      obtain ⟨i, is, hi, hrelative, hwritten, rfl⟩ := h
      have happend := Written.arguments_iff.mpr ⟨c', htakes, hwritten⟩
      refine ⟨i.prepend s hmore.1 hi, is, rfl, hrelative, ?_, ?_⟩
      · simpa [Token.ofSets, Instruction.sets, Instruction.prepend] using happend
      · simp [Instruction.steps, Instruction.prepend, Instruction.sets, hrelative]
    · rw [ihInstructions _ _ _ (by omega)] at h
      obtain ⟨is, -, hwritten, rfl⟩ := h
      have happend := Written.arguments_iff.mpr ⟨c', htakes, hwritten⟩
      refine ⟨.single letter.isLower s, is, rfl, rfl, ?_, rfl⟩
      simpa [Token.ofSets, Instruction.sets, Instruction.single] using happend
  · rintro ⟨i, is, rfl, hrelative, hwritten, rfl⟩
    have htokens : Token.ofSets i.sets ++ is.flatMap Instruction.tokens =
        i.first.arguments.map .argument ++
          (Token.ofSets i.more ++ is.flatMap Instruction.tokens) := by
      simp [Token.ofSets, Instruction.sets]
    rw [htokens] at hwritten
    obtain ⟨c', htakes, hrest⟩ := Written.arguments_iff.mp hwritten
    have hlength := htakes.length_le
    refine ⟨i.first, c', i.more.map (fun s => ⟨i.relative, s.motion⟩) ++
      is.flatMap Instruction.steps, rfl, htakes, ?_, ?_⟩
    · simp [Instruction.steps, Instruction.sets, hrelative]
    · rcases i.exists_rest with hnil | ⟨hclose, j, hjrelative, hj, hsets⟩
      · have hmore : ¬ (i.first.command ≠ .close ∧ c'.more = true) := by
          rintro ⟨-, hmore⟩
          rw [hnil] at hrest
          exact not_isArgument_flatMap is ((Written.more_iff hrest).mp hmore)
        rw [if_neg hmore, ihInstructions _ _ _ (by omega)]
        rw [hnil] at hrest ⊢
        exact ⟨is, fun hfirst => (by cases hfirst), hrest, rfl⟩
      · have hjclose : j.first.command ≠ .close := hj ▸ Command.repeated_ne_close hclose
        rw [← hsets] at hrest ⊢
        have hmore := (Written.more_iff hrest).mpr (j.isArgument_of_sets hjclose _)
        obtain ⟨n, as, has⟩ := i.first.exists_number hclose
        rw [has, List.length_cons] at hlength
        rw [if_pos ⟨hclose, hmore⟩, ihArguments _ _ _ _ (by omega)]
        refine ⟨j, is, hj, hjrelative.trans hrelative, hrest, ?_⟩
        rw [Instruction.steps, hjrelative]

end

/-- The reader reads exactly what is written down, if it has turns enough. -/
theorem reads (turns : Nat) : ReadsInstructions turns ∧ ReadsArguments turns := by
  induction turns with
  | zero =>
    constructor
    · intro first c steps h
      omega
    · intro k letter c steps h
      omega
  | succ turns ih => exact ⟨readsInstructions_succ ih.2, readsArguments_succ ih.1 ih.2⟩

/-- Path data is read exactly if it writes down instructions, of which the first is a move. -/
theorem ofPathData_steps_iff {d : String} {steps : List Step} :
    Step.ofPathData d = .ok steps ↔
      ∃ is : List Instruction, StartsWithMove is ∧
        Written (is.flatMap Instruction.tokens) d.toList ∧
        steps = is.flatMap Instruction.steps := by
  have hresult : ∀ r : Reading, r.result = .ok steps ↔ r = ⟨steps, none⟩ := by
    rintro ⟨read, error?⟩
    cases error? <;> simp [Reading.result]
  have hread := (reads (2 * d.toList.length + 1)).1 true ⟨0, d.toList⟩ steps (Nat.le_refl _)
  simpa only [Step.ofPathData, read, hresult, forall_const] using hread

end PathData

end SvgDisplayList
