import Mathlib.Tactic.SplitIfs
import SvgDisplayList.PathData.Reader
import SvgDisplayList.Proofs.PathData.Numeral

/-!
# The grammar of path data

Path data writes down a list of instructions.  An instruction is a letter with one or more sets of
arguments, `PathData.Instruction`; further sets of a move are those of lines, and a close has a
single set, which is empty.  Written as tokens, these are letters, numerals and flags.

Tokens can be written in two ways.  `Written` is the most generous one: separators may stand
anywhere between two tokens, and none need stand where a numeral cannot go on with what follows it.
`Spaced` is the careful one: behind a number stands a separator, unless a letter follows.  What is
spaced is written (`Spaced.written`).
-/

namespace SvgDisplayList

namespace PathData

/-! ## Arguments -/

/-- A numeral that is not too large. -/
structure Number where
  numeral : Numeral
  isFinite : numeral.value.isFinite = true

/-- The number that a numeral stands for. -/
def Number.value (n : Number) : Float32 := n.numeral.value

/-- An argument of a command. -/
inductive Argument where
  | number (n : Number)
  | flag (value : Bool)

namespace Argument

/-- The characters of an argument. -/
def chars : Argument → List Char
  | number n => n.numeral.chars
  | flag false => ['0']
  | flag true => ['1']

/-- Whether an argument ends before a text.  A flag is a single digit, whatever follows it. -/
def EndsBefore : Argument → List Char → Prop
  | number n, rest => n.numeral.EndsBefore rest
  | flag _, _ => True

end Argument

/-- The numbers of a point. -/
structure Coordinates where
  x : Number
  y : Number

namespace Coordinates

/-- The point of two numbers. -/
def point (p : Coordinates) : Point := ⟨p.x.value, p.y.value⟩

/-- The numbers as arguments. -/
def arguments (p : Coordinates) : List Argument := [.number p.x, .number p.y]

end Coordinates

/-- A complete set of arguments of a command. -/
inductive ArgumentSet where
  | move (p : Coordinates)
  | line (p : Coordinates)
  | horizontal (x : Number)
  | vertical (y : Number)
  | cubic (p q r : Coordinates)
  | smoothCubic (q r : Coordinates)
  | quadratic (q r : Coordinates)
  | smoothQuadratic (p : Coordinates)
  | arc (rx ry rotation : Number) (large sweep : Bool) (p : Coordinates)
  | close

namespace ArgumentSet

/-- The command that a set of arguments is for. -/
def command : ArgumentSet → Command
  | move _ => .move
  | line _ => .line
  | horizontal _ => .horizontal
  | vertical _ => .vertical
  | cubic .. => .cubic
  | smoothCubic .. => .smoothCubic
  | quadratic .. => .quadratic
  | smoothQuadratic _ => .smoothQuadratic
  | arc .. => .arc
  | close => .close

/-- The arguments of a set, in order. -/
def arguments : ArgumentSet → List Argument
  | move p | line p | smoothQuadratic p => p.arguments
  | horizontal n | vertical n => [.number n]
  | cubic p q r => p.arguments ++ (q.arguments ++ r.arguments)
  | smoothCubic q r | quadratic q r => q.arguments ++ r.arguments
  | arc rx ry rotation large sweep p =>
    .number rx :: .number ry :: .number rotation :: .flag large :: .flag sweep :: p.arguments
  | close => []

/-- What a set of arguments makes the pen do. -/
def motion : ArgumentSet → Motion
  | move p => .move p.point
  | line p => .line p.point
  | horizontal x => .horizontal x.value
  | vertical y => .vertical y.value
  | cubic p q r => .cubic p.point q.point r.point
  | smoothCubic q r => .smoothCubic q.point r.point
  | quadratic q r => .quadratic q.point r.point
  | smoothQuadratic p => .smoothQuadratic p.point
  | arc rx ry rotation large sweep p =>
    .arc ⟨rx.value, ry.value, rotation.value, large, sweep⟩ p.point
  | close => .close

/-- The arguments of every command but a close begin with a number. -/
lemma exists_number (s : ArgumentSet) (h : s.command ≠ .close) :
    ∃ n as, s.arguments = .number n :: as := by
  cases s with
  | close => exact absurd rfl h
  | move p | line p | smoothQuadratic p => exact ⟨_, _, rfl⟩
  | horizontal n | vertical n => exact ⟨_, _, rfl⟩
  | cubic p q r => exact ⟨_, _, rfl⟩
  | smoothCubic q r | quadratic q r => exact ⟨_, _, rfl⟩
  | arc => exact ⟨_, _, rfl⟩

end ArgumentSet

/-! ## Commands -/

namespace Command

/-- The letter of a command in upper case. -/
def upperLetter : Command → Char
  | move => 'M'
  | line => 'L'
  | horizontal => 'H'
  | vertical => 'V'
  | cubic => 'C'
  | smoothCubic => 'S'
  | quadratic => 'Q'
  | smoothQuadratic => 'T'
  | arc => 'A'
  | close => 'Z'

/-- The letter of a command, in lower case if the command is relative. -/
def letter (k : Command) (relative : Bool) : Char :=
  if relative then k.upperLetter.toLower else k.upperLetter

end Command

/-! ## Characters -/

/-- The letters of commands are letters, and none of them is that of an exponent. -/
lemma Command.letter_spec (k : Command) (relative : Bool) :
    isLetter (k.letter relative) = true ∧ Command.ofLetter? (k.letter relative) = some k ∧
      (k.letter relative).isLower = relative ∧ k.letter relative ∉ ['e', 'E'] := by
  cases k <;> cases relative <;> decide

/-- The letters in lower case are those from `a` to `z`. -/
lemma isLower_iff (ch : Char) : ch.isLower = true ↔ 'a'.val ≤ ch.val ∧ ch.val ≤ 'z'.val := by
  change (decide ('a'.val ≤ ch.val) && decide (ch.val ≤ 'z'.val)) = true ↔ _
  rw [Bool.and_eq_true, decide_eq_true_eq, decide_eq_true_eq]

/-- A letter in lower case comes back from upper case. -/
lemma toLower_toUpper {ch : Char} (h : ch.isLower = true) : ch.toUpper.toLower = ch := by
  have hlower := (isLower_iff ch).mp h
  have hval : ch.toUpper.val = ch.val + ('A'.val - 'a'.val) := by
    unfold Char.toUpper
    rw [dif_pos hlower]
  have hupper : 'A'.val ≤ ch.toUpper.val ∧ ch.toUpper.val ≤ 'Z'.val := by
    rw [hval]
    rw [UInt32.le_iff_toNat_le, UInt32.le_iff_toNat_le] at hlower ⊢
    obtain ⟨ha, hz⟩ := hlower
    change 97 ≤ ch.val.toNat at ha
    change ch.val.toNat ≤ 122 at hz
    have hnat : (ch.val + ('A'.val - 'a'.val)).toNat = ch.val.toNat - 32 := by
      rw [UInt32.toNat_add, show ('A'.val - 'a'.val).toNat = 2 ^ 32 - 32 from rfl]
      omega
    rw [hnat, show 'A'.val.toNat = 65 from rfl, show 'Z'.val.toNat = 90 from rfl]
    omega
  have hback : 'A'.val - 'a'.val + ('a'.val - 'A'.val) = 0 := by decide
  unfold Char.toLower
  rw [dif_pos hupper]
  apply Char.ext
  change ch.toUpper.val + ('a'.val - 'A'.val) = ch.val
  rw [hval, UInt32.add_assoc, hback, UInt32.add_zero]

/-- What has a command is the letter of that command. -/
lemma Command.eq_letter_of_ofLetter? {ch : Char} {k : Command}
    (h : Command.ofLetter? ch = some k) : ch = k.letter ch.isLower := by
  have hupper : ch.toUpper = k.upperLetter := by
    unfold Command.ofLetter? at h
    split at h <;> cases h <;> assumption
  unfold Command.letter
  rw [← hupper]
  split_ifs with hlower
  · exact (toLower_toUpper hlower).symm
  · unfold Char.toUpper
    rw [dif_neg fun hrange => hlower ((isLower_iff ch).mpr hrange)]

/-- A digit is neither a letter nor a separator. -/
lemma isDigit_spec {c : Char} (h : Decimal.isDigit c = true) :
    isLetter c = false ∧ isSeparator c = false := by
  have hrange : 48 ≤ c.toNat ∧ c.toNat ≤ 57 := by
    simpa [Decimal.isDigit, Char.le_def, UInt32.le_iff_toNat_le] using h
  have hletter : isLetter c = false := by
    have hlower : ¬ 'a' ≤ c := by
      intro hle
      have hbound : 97 ≤ c.toNat := by simpa [Char.le_def, UInt32.le_iff_toNat_le] using hle
      omega
    have hupper : ¬ 'A' ≤ c := by
      intro hle
      have hbound : 65 ≤ c.toNat := by simpa [Char.le_def, UInt32.le_iff_toNat_le] using hle
      omega
    simp [isLetter, hlower, hupper]
  have hne : ∀ x : Char, x.toNat < 48 → c ≠ x := by
    rintro x hx rfl
    omega
  refine ⟨hletter, ?_⟩
  simp [isSeparator, hne ' ' (by decide), hne '\n' (by decide), hne '\r' (by decide),
    hne '\t' (by decide), hne ',' (by decide)]

namespace Numeral

/-- No numeral goes on with a separator. -/
lemma not_goesOnWith_of_isSeparator {n : Numeral} {c : Char} (h : isSeparator c = true) :
    ¬ n.GoesOnWith c := by
  rintro (hdigit | ⟨rfl, -⟩ | ⟨rfl | rfl, -⟩)
  · exact absurd h (by simp [(isDigit_spec hdigit).2])
  all_goals exact absurd h (by decide)

/-- No numeral goes on with the letter of a command. -/
lemma not_goesOnWith_letter (n : Numeral) (k : Command) (relative : Bool) :
    ¬ n.GoesOnWith (k.letter relative) := by
  obtain ⟨hletter, -, -, hexponent⟩ := k.letter_spec relative
  rintro (hdigit | ⟨hpoint, -⟩ | ⟨he, -⟩)
  · exact absurd hletter (by simp [(isDigit_spec hdigit).1])
  · exact absurd hletter (by rw [hpoint]; decide)
  · rcases he with he | he <;> exact hexponent (by simp [he])

end Numeral

/-! ## Instructions -/

/-- A letter with its sets of arguments. -/
structure Instruction where
  relative : Bool
  first : ArgumentSet
  more : List ArgumentSet
  /-- Further sets are of the same command, but for a move, which is continued by lines. -/
  command_more : ∀ s ∈ more, s.command = first.command.repeated
  /-- A close has no further sets. -/
  more_of_close : first.command = .close → more = []

/-- A piece of path data. -/
inductive Token where
  | letter (command : Command) (relative : Bool)
  | argument (a : Argument)

namespace Token

/-- The characters of a token. -/
def chars : Token → List Char
  | letter k relative => [k.letter relative]
  | argument a => a.chars

/-- Whether a token ends before a text. -/
def EndsBefore : Token → List Char → Prop
  | letter .., _ => True
  | argument a, rest => a.EndsBefore rest

/-- Whether a token is an argument. -/
def isArgument : Token → Bool
  | letter .. => false
  | argument _ => true

/-- Whether a token is a number. -/
def isNumber : Token → Bool
  | argument (.number _) => true
  | _ => false

/-- The tokens of a list of sets of arguments. -/
def ofSets (sets : List ArgumentSet) : List Token :=
  (sets.flatMap ArgumentSet.arguments).map .argument

end Token

namespace Instruction

/-- All sets of arguments of an instruction. -/
def sets (i : Instruction) : List ArgumentSet := i.first :: i.more

/-- The tokens of an instruction. -/
def tokens (i : Instruction) : List Token :=
  .letter i.first.command i.relative :: Token.ofSets i.sets

/-- The steps of an instruction, one for each set of arguments. -/
def steps (i : Instruction) : List Step := i.sets.map fun s => ⟨i.relative, s.motion⟩

end Instruction

/-- The first instruction is a move. -/
def StartsWithMove (is : List Instruction) : Prop := ∀ i ∈ is.head?, i.first.command = .move

/-! ## Writing -/

/-- A run of separators, which may be empty. -/
def IsGap (gap : List Char) : Prop := ∀ c ∈ gap, isSeparator c = true

/-- A text writes down tokens.  Each one ends where it stands. -/
inductive Written : List Token → List Char → Prop where
  | nil {gap : List Char} (hgap : IsGap gap) : Written [] gap
  | cons {gap : List Char} {t : Token} {ts : List Token} {rest : List Char} (hgap : IsGap gap)
      (hend : t.EndsBefore rest) (hrest : Written ts rest) :
      Written (t :: ts) (gap ++ (t.chars ++ rest))

/-- A text writes down tokens, with a separator between a number and a following argument. -/
inductive Spaced : List Token → List Char → Prop where
  | nil {gap : List Char} (hgap : IsGap gap) : Spaced [] gap
  | cons {gap : List Char} {t : Token} {ts : List Token} {rest : List Char} (hgap : IsGap gap)
      (hspace : t.isNumber = true → (∃ a ∈ ts.head?, Token.isArgument a = true) →
        ∃ c ∈ rest.head?, isSeparator c = true)
      (hrest : Spaced ts rest) :
      Spaced (t :: ts) (gap ++ (t.chars ++ rest))

/-- What is spaced is written. -/
theorem Spaced.written {ts : List Token} {cs : List Char} (h : Spaced ts cs) : Written ts cs := by
  induction h with
  | nil hgap => exact .nil hgap
  | @cons gap t ts rest hgap hspace hrest ih =>
    refine .cons hgap ?_ ih
    cases t with
    | letter k relative => exact trivial
    | argument a =>
      cases a with
      | flag b => exact trivial
      | number n =>
        intro c hc
        cases hrest with
        | nil hgap' =>
          exact Numeral.not_goesOnWith_of_isSeparator (hgap' c (List.mem_of_mem_head? hc))
        | @cons gap' t' ts' rest' hgap' _ _ =>
          cases t' with
          | argument a' =>
            obtain ⟨d, hd, hsep⟩ := hspace rfl ⟨_, rfl, rfl⟩
            obtain rfl : c = d := Option.some.inj (hc.symm.trans hd)
            exact Numeral.not_goesOnWith_of_isSeparator hsep
          | letter k relative =>
            cases gap' with
            | cons d gap' =>
              cases hc
              exact Numeral.not_goesOnWith_of_isSeparator (hgap' c List.mem_cons_self)
            | nil =>
              cases hc
              exact n.numeral.not_goesOnWith_letter k relative

end PathData

end SvgDisplayList
