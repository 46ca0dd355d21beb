import SvgDisplayList.Proofs.PathData.ByteScanner

/-!
# The byte scanner advances

A turn of the byte scanner is one of reading from a cursor (`Stands.turn_follows`).  One that goes
on has read a letter or a set of arguments, and there are no arguments without characters; so it has
moved the position (`PathData.ByteScanner.advances`), whatever the bytes are and wherever it starts.
Therefore one turn more than there are bytes is enough, and the scanner finds in them what the
reader finds in the text (`PathData.ByteScanner.run_eq`).

The reader takes one turn more for a close, so that its turns are not counted like those of the byte
scanner (`PathData.ByteScanner.Leads`).
-/

namespace SvgDisplayList

namespace PathData

namespace ByteScanner

/-! ## Turns of the reader -/

/-- What may be expected: a close is complete with its letter, and no arguments of it are. -/
def IsOpen : Expectation → Prop
  | .letter _ => True
  | .arguments k _ => k ≠ .close

/-- A turn of the byte scanner, as reading from a cursor. -/
def turnAt : Expectation → Cursor → Except PathError (Option (List Step × Expectation) × Cursor)
  | .letter first, c =>
    match c.atToken.rest with
    | [] => .ok (none, c.atToken)
    | ch :: rest =>
      if !isLetter ch then
        .error (if first then .missingMoveTo else .invalidNumber c.atToken.offset)
      else do
        let next ← command first ch c.atToken.offset
        return (some next, ⟨c.atToken.offset + 1, rest⟩)
  | .arguments k letter, c => do
    let (motion, c) ← k.arguments letter c
    return (some ([⟨letter.isLower, motion⟩],
      if c.more then .arguments k.repeated letter else .letter false), c.atToken)

section

variable {bytes : List UInt8} {c c' : Cursor}

/-- A turn is taken in the bytes as in the text. -/
theorem Stands.turn_follows (h : Stands bytes c) (x : Expectation) :
    Follows bytes c.offset (turn bytes x) (turnAt x c) := by
  cases x with
  | letter first =>
    refine (h.skip_follows isAscii_isSeparator).of_ok fun hc => ?_
    refine .of_eq (a := c.atToken.offset) rfl (.of_eq hc.atEnd_eq ?_)
    change Follows bytes _ (if c.atToken.rest.isEmpty = true then _ else _) _
    cases hrest : c.atToken.rest with
    | nil =>
      rw [turnAt, hrest]
      exact follows_pure hc
    | cons ch rest =>
      obtain ⟨b, -, hb, hclass, hnext⟩ := hc.exists_byte_eq hrest
      rw [turnAt, hrest]
      refine .of_eq hb ?_
      dsimp only
      rw [hclass isLetter isAscii_isLetter]
      cases hletter : isLetter ch with
      | false => exact follows_throw hc
      | true =>
        have hascii := isAscii_isLetter ch hletter
        refine (hc.advance_follows hrest hascii).of_ok fun hbehind => ?_
        rw [(hnext hascii).1]
        dsimp only
        cases command first ch c.atToken.offset with
        | ok next => exact follows_pure hbehind
        | error e => exact follows_throw hbehind
  | arguments k letter =>
    refine (h.arguments_follows k letter).bind fun motion c hc => ?_
    exact hc.more_follows.of_ok fun hbehind => follows_pure hbehind

end

/-! ## The reader in the same turns -/

/-- A cursor moves over a byte for each argument. -/
lemma offset_add_length_le {as : List Argument} {c c' : Cursor} (h : Takes as c c') :
    c.offset + as.length ≤ c'.offset := by
  induction h with
  | nil => exact le_rfl
  | @cons _ _ a _ _ _ _ _ _ ih =>
    have hone := Takes.one_le_length_chars a
    simp only [List.length_cons] at ih ⊢
    omega

/-- The next token of a cursor is not behind it, and has no more text ahead. -/
lemma atToken_le (c : Cursor) :
    c.offset ≤ c.atToken.offset ∧ c.atToken.rest.length ≤ c.rest.length :=
  ⟨Nat.le_add_right .., (List.dropWhile_suffix _).length_le⟩

/-- At a token the cursor stays. -/
lemma atToken_atToken (c : Cursor) : c.atToken.atToken = c.atToken := by
  obtain ⟨gap, cs, -, -, hcs, hat⟩ := c.exists_atToken
  have hnone : IsGap [] := fun ch hch => by cases hch
  rw [hat]
  exact Cursor.atToken_append _ hnone hcs

/-- Arguments are read behind separators as in front of them. -/
lemma arguments_atToken {k : Command} (hk : k ≠ .close) (letter : Char) (c : Cursor) :
    k.arguments letter c.atToken = k.arguments letter c := by
  have hnumber : c.atToken.number letter = c.number letter := by
    unfold Cursor.number
    rw [atToken_atToken]
  cases k with
  | close => exact absurd rfl hk
  | _ => simp only [Command.arguments, Cursor.pair, hnumber]

/-- The reader goes on behind separators as in front of them. -/
lemma readFrom_atToken {x : Expectation} (hx : IsOpen x) (turns : Nat) (c : Cursor) :
    readFrom turns x c.atToken = readFrom turns x c := by
  cases turns with
  | zero => rfl
  | succ turns =>
    cases x with
    | letter first => rw [readFrom, readFrom, atToken_atToken]
    | arguments k letter => rw [readFrom, readFrom, arguments_atToken hx]

/-- What a letter leads to, by its command. -/
lemma command_eq (first : Bool) (letter : Char) (offset : Nat) :
    command first letter offset =
      match Command.ofLetter? letter with
      | none => .error (if first then .missingMoveTo else .unknownCommand letter offset)
      | some k =>
        if first && k ≠ .move then .error .missingMoveTo
        else if k = .close then .ok ([⟨letter.isLower, .close⟩], .letter false)
        else .ok ([], .arguments k letter) := by
  unfold command
  by_cases hmove : letter = 'M' ∨ letter = 'm'
  · rw [ofLetter?_eq_move_iff.mpr hmove]
    rcases hmove with rfl | rfl <;> simp
  · have hne : (letter != 'M' && letter != 'm') = true := by simpa [not_or] using hmove
    rw [Bool.and_assoc, hne, Bool.and_true]
    cases hk : Command.ofLetter? letter with
    | none => cases first <;> rfl
    | some k =>
      have hother : k ≠ .move := fun h => hmove (ofLetter?_eq_move_iff.mp (h ▸ hk))
      cases first with
      | true => simp [hother]
      | false => cases k <;> rfl

section

variable {x next : Expectation} {c c' : Cursor} {steps : List Step} {e : PathError}

/-- Where a turn is refused, so is the text. -/
lemma readFrom_of_refused (h : turnAt x c = .error e) (turns : Nat) :
    readFrom (turns + 1) x c = .failed e := by
  cases x with
  | letter first =>
    rw [turnAt] at h
    rw [readFrom]
    cases hrest : c.atToken.rest with
    | nil => rw [hrest] at h; cases h
    | cons ch rest =>
      rw [hrest] at h
      dsimp only at h ⊢
      cases hletter : isLetter ch with
      | false =>
        rw [hletter] at h
        cases h
        rfl
      | true =>
        rw [hletter, if_neg (by decide), bind_eq_error_iff, command_eq] at h
        have hcommand := h.resolve_right (by rintro ⟨r, -, hr⟩; cases hr)
        rw [if_neg (by decide)]
        cases hk : Command.ofLetter? ch with
        | none =>
          rw [hk] at hcommand
          cases hcommand
          rfl
        | some k =>
          rw [hk] at hcommand
          dsimp only at hcommand ⊢
          split_ifs at hcommand with hmove
          cases hcommand
          rw [if_pos hmove]
  | arguments k letter =>
    rw [turnAt, bind_eq_error_iff] at h
    rw [readFrom]
    rcases h with h | ⟨r, -, h⟩
    · rw [h]
    · cases h

/-- Where a turn finds the end of the text, the reading is done. -/
lemma readFrom_of_done (h : turnAt x c = .ok (none, c')) :
    c'.rest = [] ∧ ∀ turns, readFrom (turns + 1) x c = .done := by
  cases x with
  | letter first =>
    rw [turnAt] at h
    cases hrest : c.atToken.rest with
    | nil =>
      rw [hrest] at h
      cases h
      refine ⟨hrest, fun turns => ?_⟩
      rw [readFrom, hrest]
    | cons ch rest =>
      rw [hrest] at h
      dsimp only at h
      split_ifs at h
      obtain ⟨r, -, hr⟩ := bind_eq_ok_iff.mp h
      cases hr
  | arguments k letter =>
    rw [turnAt, bind_eq_ok_iff] at h
    obtain ⟨r, -, hr⟩ := h
    cases hr

/-- A turn leads from one cursor to another: it leaves something open, the position has moved, and
the reader goes on there with its steps taken, in so many turns of its own. -/
structure Leads (x : Expectation) (c : Cursor) (steps : List Step) (next : Expectation)
    (c' : Cursor) : Prop where
  isOpen : IsOpen next
  lt : c.offset < c'.offset
  read : ∃ used, remaining (next, c') + used ≤ remaining (x, c) ∧
    ∀ turns, readFrom (turns + used) x c = steps.foldr Reading.after (readFrom turns next c')

/-- The reader goes from the letter of a command to its arguments. -/
lemma readFrom_letter {first : Bool} {k : Command} {ch : Char} {rest : List Char}
    (hrest : c.atToken.rest = ch :: rest) (hletter : ¬ (!isLetter ch) = true)
    (hk : Command.ofLetter? ch = some k) (hmove : ¬ (first && decide (k ≠ .move)) = true)
    (turns : Nat) :
    readFrom (turns + 1) (.letter first) c =
      readFrom turns (.arguments k ch) ⟨c.atToken.offset + 1, rest⟩ := by
  rw [readFrom, hrest]
  dsimp only
  rw [if_neg hletter, hk]
  dsimp only
  rw [if_neg hmove]

/-- A letter leads on: behind a close to the next letter, in two turns of the reader, and else to
arguments. -/
lemma leads_letter {first : Bool} (h : turnAt (.letter first) c = .ok (some (steps, next), c')) :
    Leads (.letter first) c steps next c' := by
  rw [turnAt] at h
  obtain ⟨hoffset, hlength⟩ := atToken_le c
  cases hrest : c.atToken.rest with
  | nil => rw [hrest] at h; cases h
  | cons ch rest =>
    rw [hrest] at h hlength
    rw [List.length_cons] at hlength
    dsimp only at h
    split_ifs at h with hletter
    obtain ⟨r, hcommand, hr⟩ := bind_eq_ok_iff.mp h
    cases hr
    rw [command_eq] at hcommand
    cases hk : Command.ofLetter? ch with
    | none => rw [hk] at hcommand; cases hcommand
    | some k =>
      rw [hk] at hcommand
      dsimp only at hcommand
      split_ifs at hcommand with hmove hclose <;> cases hcommand
      · refine ⟨trivial, Nat.lt_succ_of_le hoffset, 2, ?_, fun turns => ?_⟩
        · simp only [remaining]
          omega
        · rw [readFrom_letter hrest hletter hk hmove, hclose, readFrom]
          rfl
      · refine ⟨hclose, Nat.lt_succ_of_le hoffset, 1, ?_, readFrom_letter hrest hletter hk hmove⟩
        simp only [remaining]
        omega

/-- Arguments lead on, since the first of them is a number, and has characters. -/
lemma leads_arguments {k : Command} {letter : Char} (hclose : k ≠ .close)
    (h : turnAt (.arguments k letter) c = .ok (some (steps, next), c')) :
    Leads (.arguments k letter) c steps next c' := by
  rw [turnAt, bind_eq_ok_iff] at h
  obtain ⟨⟨motion, c₁⟩, harguments, hr⟩ := h
  cases hr
  obtain ⟨s, hs, rfl, htakes⟩ := Command.arguments_eq_ok_iff.mp harguments
  obtain ⟨n, as, has⟩ := s.exists_number (hs ▸ hclose)
  have hoffset := offset_add_length_le htakes
  have hlength := htakes.length_le
  rw [has, List.length_cons] at hoffset hlength
  obtain ⟨hoffset', hlength'⟩ := atToken_le c₁
  have hnext : IsOpen (if c₁.more then .arguments k.repeated letter else .letter false) := by
    split_ifs
    · exact Command.repeated_ne_close hclose
    · trivial
  refine ⟨hnext, by omega, 1, ?_, fun turns => ?_⟩
  · split_ifs <;> simp only [remaining] <;> omega
  · rw [readFrom_atToken hnext, readFrom, harguments]
    simp [hclose]

/-- A turn that goes on leads on. -/
theorem leads_of_turnAt (hx : IsOpen x) (h : turnAt x c = .ok (some (steps, next), c')) :
    Leads x c steps next c' := by
  cases x with
  | letter first => exact leads_letter h
  | arguments k letter => exact leads_arguments hx h

end

/-! ## Progress -/

/-- A scan from a position on does not move it back or out of the bytes, and stops short only where
the path data is refused. -/
def StaysIn {α : Type} (bytes : List UInt8) (i : Nat) (x : Scan α) : Prop :=
  match x i with
  | .ok _ j => i ≤ j ∧ j ≤ bytes.length
  | .error stop j => i ≤ j ∧ j ≤ bytes.length ∧ ∃ e, stop = .refused e

/-- What does the same as reading from a cursor stays in the bytes. -/
lemma Follows.staysIn {α : Type} {bytes : List UInt8} {i : Nat} {x : Scan α}
    {m : Except PathError (α × Cursor)} (h : Follows bytes i x m) : StaysIn bytes i x := by
  unfold StaysIn
  cases h with
  | ok hx hle hc =>
    rw [hx]
    exact ⟨hle, hc.le⟩
  | error hx hle hlength =>
    rw [hx]
    exact ⟨hle, hlength, _, rfl⟩

/-- Numbers, flags, whole sets of arguments and the look for another one are scanned in the bytes,
whatever they are and wherever the scan starts. -/
theorem staysIn (bytes : List UInt8) {i : Nat} (hi : i ≤ bytes.length) (k : Command)
    (letter : Char) :
    StaysIn bytes i (number bytes letter) ∧ StaysIn bytes i (flag bytes letter) ∧
      StaysIn bytes i (arguments bytes k letter) ∧ StaysIn bytes i (more bytes) :=
  have hstands : Stands bytes ⟨i, (bytes.drop i).map asChar⟩ := ⟨hi, shows_map _⟩
  ⟨(hstands.number_follows letter).staysIn, (hstands.flag_follows letter).staysIn,
    (hstands.arguments_follows k letter).staysIn, hstands.more_follows.staysIn⟩

/-- A turn from a position on has moved it where it goes on, and has come to the end where it does
not; otherwise the path data is refused.  In no case does the position move back or leave the
bytes. -/
def Advances (bytes : List UInt8) (x : Expectation) (i : Nat) : Prop :=
  match turn bytes x i with
  | .ok (some (_, next)) j => i < j ∧ j ≤ bytes.length ∧ IsOpen next
  | .ok none j => i ≤ j ∧ j = bytes.length
  | .error stop j => i ≤ j ∧ j ≤ bytes.length ∧ ∃ e, stop = .refused e

/-- Turns advance, whatever the bytes are and wherever they start. -/
theorem advances (bytes : List UInt8) {x : Expectation} (hx : IsOpen x) {i : Nat}
    (hi : i ≤ bytes.length) : Advances bytes x i := by
  have hstands : Stands bytes ⟨i, (bytes.drop i).map asChar⟩ := ⟨hi, shows_map _⟩
  have hfollows := hstands.turn_follows x
  unfold Advances
  generalize hturn : turnAt x ⟨i, (bytes.drop i).map asChar⟩ = answer at hfollows
  cases hfollows with
  | error hx hle hlength =>
    rw [hx]
    exact ⟨hle, hlength, _, rfl⟩
  | @ok a c hscan hle hc =>
    rw [hscan]
    cases a with
    | none =>
      exact ⟨hle, le_antisymm hc.le (hc.length_le_iff.mpr (readFrom_of_done hturn).1)⟩
    | some r =>
      have hleads := leads_of_turnAt hx hturn
      exact ⟨hleads.lt, hc.le, hleads.isOpen⟩

/-- What a numeral moves over from a position on is the text of a number, finite or too large. -/
def HandsOnNumber (bytes : List UInt8) (start : Nat) : Prop :=
  match numeral bytes (.refused (.invalidNumber start)) start with
  | .ok _ i => start < i ∧ i ≤ bytes.length ∧
      ∃ d, decimal? ((bytes.drop start).take (i - start)) = some d ∧
        (d.toBinary32.isFinite = true ∨ d.toBinary32.isInf = true)
  | .error stop i => start ≤ i ∧ i ≤ bytes.length ∧ stop = .refused (.invalidNumber start)

/-- Numerals are the texts of numbers, whatever the bytes are and wherever they start. -/
theorem handsOnNumber (bytes : List UInt8) {start : Nat} (hstart : start < bytes.length) :
    HandsOnNumber bytes start := by
  have hstands : Stands bytes ⟨start, (bytes.drop start).map asChar⟩ := ⟨hstart.le, shows_map _⟩
  have hne := mt hstands.length_le_iff.mpr (not_le.mpr hstart)
  have hfollows := hstands.numeral_follows hne (.invalidNumber start)
  unfold HandsOnNumber
  cases hnumeral : numeral? ((bytes.drop start).map asChar) with
  | none =>
    rw [hnumeral] at hfollows
    cases hfollows with
    | error hscan hle hlength =>
      rw [hscan]
      exact ⟨hle, hlength, rfl⟩
  | some split =>
    obtain ⟨token, rest⟩ := split
    obtain ⟨n, rfl, hsplit, -⟩ := numeral?_eq_some_iff.mp hnumeral
    obtain ⟨hdecimal, hbehind⟩ := hstands.decimal?_eq hsplit
    rw [hnumeral] at hfollows
    cases hfollows with
    | ok hscan hle hc =>
      rw [hscan]
      obtain ⟨ch, chars, hchars, -⟩ := n.startsNumber_head? []
      rw [List.append_nil] at hchars
      refine ⟨Nat.lt_add_of_pos_right ?_, hc.le, n.decimal, hdecimal, ?_⟩
      · rw [hchars]
        exact Nat.zero_lt_succ _
      · cases hfinite : n.decimal.toBinary32.isFinite with
        | true => exact .inl rfl
        | false => exact .inr (Decimal.isInf_toBinary32 hfinite)

/-- A result of reading, as that of a scan that has come to a position. -/
def settled {α : Type} (r : Except PathError α) (i : Nat) : EStateM.Result Stop Nat α :=
  match r with
  | .ok a => .ok a i
  | .error e => .error (.refused e) i

/-- The result of a reading with steps before it. -/
lemma result_foldr_after (steps : List Step) (r : Reading) :
    (steps.foldr Reading.after r).result = r.result.map (steps ++ ·) := by
  induction steps with
  | nil =>
    rw [List.foldr_nil]
    cases r.result <;> rfl
  | cons s steps ih =>
    have hafter (r : Reading) : (r.after s).result = r.result.map (s :: ·) := by
      unfold Reading.result Reading.after
      cases r.error? <;> rfl
    rw [List.foldr_cons, hafter, ih]
    cases r.result <;> rfl

/-- A turn may be left. -/
lemma one_le_remaining (x : Expectation) (c : Cursor) : 1 ≤ remaining (x, c) := by
  unfold remaining
  split <;> omega

/-- With one turn more than there are bytes ahead, the byte scanner finds what the reader finds. -/
theorem run_eq {bytes : List UInt8} {x : Expectation} (hx : IsOpen x) {c : Cursor}
    (hc : Stands bytes c) {turns turns' : Nat} (hturns : bytes.length < c.offset + turns)
    (hturns' : remaining (x, c) ≤ turns') :
    ∃ i, c.offset ≤ i ∧ i ≤ bytes.length ∧
      run bytes turns x c.offset = settled (readFrom turns' x c).result i := by
  induction turns generalizing x c turns' with
  | zero => exact absurd hc.le (by omega)
  | succ turns ih =>
    obtain ⟨left, rfl⟩ := Nat.exists_eq_add_of_le' ((one_le_remaining x c).trans hturns')
    have hfollows := hc.turn_follows x
    generalize hturn : turnAt x c = answer at hfollows
    cases hfollows with
    | error hscan hle hlength =>
      rw [readFrom_of_refused hturn]
      exact ⟨_, hle, hlength, bind_of_error hscan⟩
    | @ok a c' hscan hle hc' =>
      cases a with
      | none =>
        rw [(readFrom_of_done hturn).2]
        exact ⟨_, hle, hc'.le, bind_of_ok hscan⟩
      | some r =>
        obtain ⟨steps, next⟩ := r
        obtain ⟨hopen, hlt, used, hremaining, hread⟩ := leads_of_turnAt hx hturn
        obtain ⟨left', hleft⟩ : ∃ left', left + 1 = left' + used :=
          Nat.exists_eq_add_of_le' (by omega)
        have henough : remaining (next, c') ≤ left' := by omega
        obtain ⟨i, hi, hlength, hrun⟩ := ih hopen hc' (by omega) henough
        refine ⟨i, hle.trans hi, hlength, (bind_of_ok hscan).trans ?_⟩
        change (run bytes turns next >>= fun behind => pure (steps ++ behind)) c'.offset = _
        rw [hleft, hread, result_foldr_after]
        cases hresult : (readFrom left' next c').result with
        | ok behind =>
          rw [hresult] at hrun
          exact bind_of_ok hrun
        | error e =>
          rw [hresult] at hrun
          exact bind_of_error hrun

/-- The bytes of a text. -/
def bytesOf (d : String) : List UInt8 := d.toUTF8.data.toList

/-- At the beginning of a text the position is at the beginning of its bytes. -/
lemma stands_bytesOf (d : String) : Stands (bytesOf d) ⟨0, d.toList⟩ := by
  refine ⟨Nat.zero_le _, ?_⟩
  have hbytes : bytesOf d = d.toList.utf8Encode.data.toList := by
    unfold bytesOf
    rw [String.toUTF8_eq_toByteArray, ← String.toByteArray_ofList, String.ofList_toList]
  rw [hbytes]
  exact shows_utf8Encode d.toList

/-- The byte scanner always advances and stays in the bytes.

Every turn, of whatever is expected and wherever it starts, moves the position where it goes on, and
comes to the end where it does not; otherwise the path data is refused.  Within a turn, too, the
position does not move back, and does not leave the bytes.  What is handed on as the token of a
number is bytes of ASCII that are the text of one, finite or too large.  And with one turn more than
there are bytes, the scanner finds what the reader of path data finds: it does not look at a byte
outside of the text, does not misread a token, and does not run out of turns. -/
theorem scanner_advances (d : String) :
    (∀ x i, IsOpen x → i ≤ (bytesOf d).length → Advances (bytesOf d) x i) ∧
    (∀ k letter, ∀ i ≤ (bytesOf d).length,
      StaysIn (bytesOf d) i (number (bytesOf d) letter) ∧
      StaysIn (bytesOf d) i (flag (bytesOf d) letter) ∧
      StaysIn (bytesOf d) i (arguments (bytesOf d) k letter) ∧
      StaysIn (bytesOf d) i (more (bytesOf d))) ∧
    (∀ start < (bytesOf d).length, HandsOnNumber (bytesOf d) start) ∧
    ∃ i ≤ (bytesOf d).length, run (bytesOf d) ((bytesOf d).length + 1) (.letter true) 0 =
      settled (Step.ofPathData d) i := by
  refine ⟨fun x i hx hi => advances _ hx hi, fun k letter i hi => staysIn _ hi k letter,
    fun start => handsOnNumber _, ?_⟩
  have hturns : (bytesOf d).length < 0 + ((bytesOf d).length + 1) := by omega
  have hremaining : remaining (.letter true, ⟨0, d.toList⟩) ≤ 2 * d.toList.length + 1 := le_rfl
  obtain ⟨i, -, hlength, hrun⟩ := run_eq (x := .letter true) trivial (stands_bytesOf d) hturns
    hremaining
  exact ⟨i, hlength, hrun⟩

/-- A move to what is too large: its numbers are scanned in one turn, and the second one is refused
where it begins. -/
theorem scanner_advances_tooLarge :
    let bytes := bytesOf "M0 1e39"
    (IsOpen (.arguments .move 'M') ∧ 1 ≤ bytes.length ∧ 3 < bytes.length) ∧
      Advances bytes (.arguments .move 'M') 1 ∧ StaysIn bytes 1 (number bytes 'M') ∧
      HandsOnNumber bytes 3 ∧
      ∃ i ≤ bytes.length,
        run bytes (bytes.length + 1) (.letter true) 0 = .error (.refused (.invalidNumber 3)) i := by
  intro bytes
  have hopen : IsOpen (.arguments .move 'M') := by
    intro hclose
    cases hclose
  have hlength : bytes.length = 7 := by decide +kernel
  have herror : (read "M0 1e39".toList).error? = some (.invalidNumber 3) := by decide +kernel
  have hresult : Step.ofPathData "M0 1e39" = .error (.invalidNumber 3) := by
    unfold Step.ofPathData Reading.result
    rw [herror]
  obtain ⟨hadvances, hstays, htokens, i, hi, hrun⟩ := scanner_advances "M0 1e39"
  rw [hresult] at hrun
  exact ⟨⟨hopen, by omega, by omega⟩, hadvances _ _ hopen (hlength ▸ by decide),
    (hstays .move 'M' 1 (hlength ▸ by decide)).1, htokens 3 (hlength ▸ by decide), i, hi, hrun⟩

end ByteScanner

end PathData

end SvgDisplayList
