import Mathlib.Tactic.Lemma
import Mathlib.Tactic.SplitIfs
import SvgDisplayList.Codec.Base64
import SvgDisplayList.Proofs.Fallible

/-!
# Base64 there and back

Every byte sequence is read back from its written form, and nothing but written forms is read
(`Base64.decode_eq_ok_iff`).  Three bytes are four sextets and the other way round
(`Base64.bytesOf_sextets`, `Base64.encode_bytesOf`); this settles all groups but the last.  The last
group consists of the symbols of its sextets and of padding (`Base64.lastGroup_eq_ok`), and of its
unused bits, which have to be zero, nothing is lost (`Base64.decodeLast_eq_ok`).
-/

namespace SvgDisplayList

namespace Base64

/-! ## Symbols -/

/-- The symbol of six bits stands for them. -/
lemma sextet?_symbol : ∀ n < 64, sextet? (symbol n) = some n := by
  decide

/-- No six bits have the padding symbol. -/
lemma symbol_ne_pad : ∀ n < 64, symbol n ≠ pad := by
  decide

/-- Symbols are ASCII. -/
lemma toNat_symbol_lt (n : Nat) : (symbol n).toNat < 128 := by
  unfold symbol
  split_ifs <;> simp only [UInt8.toNat_ofNat'] <;> omega

/-- What stands for six bits is their symbol. -/
lemma eq_symbol_of_sextet? {b : UInt8} {n : Nat} (h : sextet? b = some n) :
    n < 64 ∧ b = symbol n := by
  unfold sextet? at h
  simp only [Bool.and_eq_true, decide_eq_true_eq] at h
  split_ifs at h with hupper hlower hdigit hplus hslash
  all_goals
    obtain rfl := Option.some.inj h
    refine ⟨by omega, UInt8.toNat.inj ?_⟩
    unfold symbol
    split_ifs <;> simp only [UInt8.toNat_ofNat'] <;> omega

/-- A symbol is read at any offset. -/
lemma sextetAt_symbol {n : Nat} (hn : n < 64) (offset : Nat) :
    sextetAt (symbol n) offset = .ok n := by
  unfold sextetAt
  rw [sextet?_symbol n hn]

/-- What is read at an offset is a symbol. -/
lemma eq_symbol_of_sextetAt {b : UInt8} {offset n : Nat} (h : sextetAt b offset = .ok n) :
    n < 64 ∧ b = symbol n := by
  unfold sextetAt at h
  split at h
  · rename_i hsextet
    cases h
    exact eq_symbol_of_sextet? hsextet
  · cases h

/-! ## Groups -/

/-- A number below 256 is the number of its byte. -/
lemma ofNat_eq {a : UInt8} {n : Nat} (h : n = a.toNat) : UInt8.ofNat n = a := by
  rw [h, UInt8.ofNat_toNat]

/-- Three bytes are made up of their four sextets. -/
lemma bytesOf_sextets (a b c : UInt8) :
    bytesOf (a.toNat / 4) (a.toNat % 4 * 16 + b.toNat / 16) (b.toNat % 16 * 4 + c.toNat / 64)
      (c.toNat % 64) = [a, b, c] := by
  have ha := a.toNat_lt
  have hb := b.toNat_lt
  have hc := c.toNat_lt
  unfold bytesOf
  rw [ofNat_eq (a := a) (by omega), ofNat_eq (a := b) (by omega), ofNat_eq (a := c) (by omega)]

/-- Four sextets are written as the three bytes that they make up. -/
lemma encode_bytesOf {w x y z : Nat} (hw : w < 64) (hx : x < 64) (hy : y < 64) (hz : z < 64)
    (bs : List UInt8) :
    encode (bytesOf w x y z ++ bs) = symbol w :: symbol x :: symbol y :: symbol z :: encode bs := by
  unfold bytesOf
  simp only [List.cons_append, List.nil_append, encode, UInt8.toNat_ofNat']
  congr 5 <;> omega

/-- Two sextets that leave no bit behind are written as the byte that they make up. -/
lemma encode_two {w x : Nat} (hw : w < 64) (hx : x < 64) (hzero : x % 16 = 0) :
    encode [UInt8.ofNat (w * 4 + x / 16)] = [symbol w, symbol x, pad, pad] := by
  simp only [encode, UInt8.toNat_ofNat']
  congr 3 <;> omega

/-- Three sextets that leave no bit behind are written as the two bytes that they make up. -/
lemma encode_three {w x y : Nat} (hw : w < 64) (hx : x < 64) (hy : y < 64) (hzero : y % 4 = 0) :
    encode [UInt8.ofNat (w * 4 + x / 16), UInt8.ofNat (x % 16 * 16 + y / 4)] =
      [symbol w, symbol x, symbol y, pad] := by
  simp only [encode, UInt8.toNat_ofNat']
  congr 4 <;> omega

/-! ## The last group -/

variable {start index : Nat} {firstPad? : Option Nat} {pads : Nat}

/-- Padding is counted. -/
lemma lastGroup_replicate (count : Nat) (h : 2 ≤ index ∨ count = 0) :
    lastGroup start index firstPad? pads (List.replicate count pad) = .ok ([], pads + count) := by
  induction count generalizing index firstPad? pads with
  | zero => rfl
  | succ count ih =>
    have hindex : 2 ≤ index := h.resolve_right (Nat.succ_ne_zero count)
    rw [List.replicate_succ]
    unfold lastGroup
    rw [if_pos rfl, if_neg (Nat.not_lt.mpr hindex), ih (Or.inl (Nat.le_succ_of_le hindex)),
      Nat.add_assoc, Nat.add_comm 1]

/-- Symbols are read up to the padding. -/
lemma lastGroup_symbols {ns : List Nat} (hns : ∀ n ∈ ns, n < 64) {count : Nat}
    (h : 2 ≤ index + ns.length ∨ count = 0) :
    lastGroup start index none pads (ns.map symbol ++ List.replicate count pad) =
      .ok (ns, pads + count) := by
  induction ns generalizing index with
  | nil => exact lastGroup_replicate count h
  | cons n ns ih =>
    obtain ⟨hn, hns⟩ := List.forall_mem_cons.mp hns
    rw [List.length_cons] at h
    rw [List.map_cons, List.cons_append]
    unfold lastGroup
    rw [if_neg (symbol_ne_pad n hn), sextetAt_symbol hn, ih hns (by omega)]
    rfl

/-- A last group that is read consists of the symbols of its sextets and of padding, and behind
padding there is no symbol. -/
lemma lastGroup_eq_ok {group : List UInt8} {ns : List Nat} {total : Nat}
    (h : lastGroup start index firstPad? pads group = .ok (ns, total)) :
    (∀ n ∈ ns, n < 64) ∧ (firstPad?.isSome → ns = []) ∧
      ∃ count, total = pads + count ∧ group = ns.map symbol ++ List.replicate count pad := by
  induction group generalizing index firstPad? pads ns with
  | nil =>
    cases h
    exact ⟨List.forall_mem_nil _, fun _ => rfl, 0, rfl, rfl⟩
  | cons b group ih =>
    unfold lastGroup at h
    split_ifs at h with hpad hindex
    · obtain ⟨-, hnil, count, rfl, rfl⟩ := ih h
      obtain rfl := hnil rfl
      refine ⟨List.forall_mem_nil _, fun _ => rfl, count + 1, by omega, ?_⟩
      rw [hpad, List.replicate_succ]
      rfl
    · cases firstPad? with
      | some i => cases h
      | none =>
        dsimp only at h
        cases hsextet : sextetAt b (start + index) with
        | error e =>
          rw [hsextet] at h
          cases h
        | ok n =>
          rw [hsextet] at h
          dsimp only at h
          cases hrest : lastGroup start (index + 1) none pads group with
          | error e =>
            rw [hrest] at h
            cases h
          | ok result =>
            obtain ⟨rest, last⟩ := result
            rw [hrest] at h
            obtain ⟨rfl, rfl⟩ := Prod.mk.inj (Except.ok.inj h)
            obtain ⟨hn, rfl⟩ := eq_symbol_of_sextetAt hsextet
            obtain ⟨hns, -, count, rfl, rfl⟩ := ih hrest
            refine ⟨List.forall_mem_cons.mpr ⟨hn, hns⟩, fun hsome => ?_, count, rfl, rfl⟩
            cases hsome

/-- A last group that is read is the written form of its bytes. -/
lemma decodeLast_eq_ok {group bs : List UInt8} (hlength : group.length ≤ 4)
    (h : decodeLast start group = .ok bs) : group = encode bs := by
  unfold decodeLast at h
  cases hgroup : lastGroup start 0 none 0 group with
  | error e =>
    rw [hgroup] at h
    cases h
  | ok result =>
    obtain ⟨ns, total⟩ := result
    rw [hgroup] at h
    obtain ⟨hns, -, count, rfl, hshape⟩ := lastGroup_eq_ok hgroup
    simp only [bind, Except.bind, pure, Except.pure, Nat.zero_add] at h
    rw [hshape, List.length_append, List.length_map, List.length_replicate] at hlength
    split_ifs at h with hshort hpadding
    rw [hshape]
    -- the padding fills the group up to four symbols
    match ns, h with
    | [a, b], h =>
      simp only [List.forall_mem_cons, List.length_cons, List.length_nil] at hns hpadding hlength
      obtain rfl : count = 2 := by omega
      dsimp only at h
      split_ifs at h with hzero
      cases h
      exact (encode_two hns.1 hns.2.1 (by omega)).symm
    | [a, b, c], h =>
      simp only [List.forall_mem_cons, List.length_cons, List.length_nil] at hns hpadding hlength
      obtain rfl : count = 1 := by omega
      dsimp only at h
      split_ifs at h with hzero
      cases h
      exact (encode_three hns.1 hns.2.1 hns.2.2.1 (by omega)).symm
    | [a, b, c, d], h =>
      simp only [List.forall_mem_cons, List.length_cons, List.length_nil] at hns hlength
      obtain rfl : count = 0 := by omega
      cases h
      exact (encode_bytesOf hns.1 hns.2.1 hns.2.2.1 hns.2.2.2.1 []).symm

/-- Symbols of enough sextets with padding behind them are taken apart. -/
lemma lastGroup_start {ns : List Nat} (hns : ∀ n ∈ ns, n < 64) (hlength : 2 ≤ ns.length)
    (count : Nat) :
    lastGroup start 0 none 0 (ns.map symbol ++ List.replicate count pad) = .ok (ns, count) := by
  rw [lastGroup_symbols hns (Or.inl (by omega)), Nat.zero_add]

/-- The two sextets of one byte. -/
lemma forall_sextets_one (a : UInt8) : ∀ n ∈ [a.toNat / 4, a.toNat % 4 * 16], n < 64 := by
  have ha := a.toNat_lt
  intro n hn
  simp only [List.mem_cons, List.not_mem_nil, or_false] at hn
  omega

/-- The three sextets of two bytes. -/
lemma forall_sextets_two (a b : UInt8) :
    ∀ n ∈ [a.toNat / 4, a.toNat % 4 * 16 + b.toNat / 16, b.toNat % 16 * 4], n < 64 := by
  have ha := a.toNat_lt
  have hb := b.toNat_lt
  intro n hn
  simp only [List.mem_cons, List.not_mem_nil, or_false] at hn
  omega

/-- The four sextets of three bytes. -/
lemma forall_sextets (a b c : UInt8) :
    ∀ n ∈ [a.toNat / 4, a.toNat % 4 * 16 + b.toNat / 16, b.toNat % 16 * 4 + c.toNat / 64,
      c.toNat % 64], n < 64 := by
  have ha := a.toNat_lt
  have hb := b.toNat_lt
  have hc := c.toNat_lt
  intro n hn
  simp only [List.mem_cons, List.not_mem_nil, or_false] at hn
  omega

/-- One byte is read from its written form. -/
lemma decodeLast_one (start : Nat) (a : UInt8) : decodeLast start (encode [a]) = .ok [a] := by
  have ha := a.toNat_lt
  have hgroup : lastGroup start 0 none 0 (encode [a]) = .ok (_, 2) :=
    lastGroup_start (forall_sextets_one a) (Nat.le_refl 2) 2
  unfold decodeLast
  rw [hgroup]
  simp only [bind, Except.bind, pure, Except.pure, List.length_cons, List.length_nil]
  rw [if_neg (by decide), if_neg (by decide), if_neg (by omega), ofNat_eq (a := a) (by omega)]

/-- Two bytes are read from their written form. -/
lemma decodeLast_two (start : Nat) (a b : UInt8) :
    decodeLast start (encode [a, b]) = .ok [a, b] := by
  have ha := a.toNat_lt
  have hb := b.toNat_lt
  have hgroup : lastGroup start 0 none 0 (encode [a, b]) = .ok (_, 1) :=
    lastGroup_start (forall_sextets_two a b) (Nat.le_succ 2) 1
  unfold decodeLast
  rw [hgroup]
  simp only [bind, Except.bind, pure, Except.pure, List.length_cons, List.length_nil]
  rw [if_neg (by decide), if_neg (by decide), if_neg (by omega), ofNat_eq (a := a) (by omega),
    ofNat_eq (a := b) (by omega)]

/-- Three bytes are read from their written form. -/
lemma decodeLast_three (start : Nat) (a b c : UInt8) :
    decodeLast start (encode [a, b, c]) = .ok [a, b, c] := by
  have hgroup : lastGroup start 0 none 0 (encode [a, b, c]) = .ok (_, 0) :=
    lastGroup_start (forall_sextets a b c) (Nat.le_add_left 2 2) 0
  unfold decodeLast
  rw [hgroup]
  simp only [bind, Except.bind, pure, Except.pure, List.length_cons, List.length_nil,
    bytesOf_sextets]
  rw [if_neg (by decide), if_neg (by decide)]

/-! ## All groups -/

/-- Written forms are made of groups of four symbols. -/
lemma length_encode_mod_four (bs : List UInt8) : (encode bs).length % 4 = 0 := by
  induction bs using encode.induct with
  | case1 => rfl
  | case2 | case3 => simp only [encode, List.length_cons, List.length_nil]
  | case4 a b c rest ih =>
    simp only [encode, List.length_cons]
    omega

/-- Written forms are symbols with padding behind them. -/
lemma exists_symbols (bs : List UInt8) : ∃ (ns : List Nat) (count : Nat), (∀ n ∈ ns, n < 64) ∧
    encode bs = ns.map symbol ++ List.replicate count pad := by
  induction bs using encode.induct with
  | case1 => exact ⟨[], 0, List.forall_mem_nil _, rfl⟩
  | case2 a => exact ⟨_, 2, forall_sextets_one a, rfl⟩
  | case3 a b => exact ⟨_, 1, forall_sextets_two a b, rfl⟩
  | case4 a b c rest ih =>
    obtain ⟨ns, count, hns, hrest⟩ := ih
    refine ⟨_, count, List.forall_mem_append.mpr ⟨forall_sextets a b c, hns⟩, ?_⟩
    rw [encode, hrest]
    rfl

/-- Written forms consist of symbols and padding. -/
lemma mem_encode {bs : List UInt8} {b : UInt8} (h : b ∈ encode bs) :
    b = pad ∨ ∃ n < 64, b = symbol n := by
  obtain ⟨ns, count, hns, hencode⟩ := exists_symbols bs
  rw [hencode, List.mem_append] at h
  rcases h with h | h
  · obtain ⟨n, hn, rfl⟩ := List.mem_map.mp h
    exact Or.inr ⟨n, hns n hn, rfl⟩
  · exact Or.inl (List.eq_of_mem_replicate h)

/-- Only the empty sequence has an empty written form. -/
lemma encode_ne_nil {bs : List UInt8} (h : bs ≠ []) : encode bs ≠ [] := by
  match bs with
  | [] => exact absurd rfl h
  | [_] | [_, _] | _ :: _ :: _ :: _ => simp [encode]

/-- Byte sequences are read back from their written forms. -/
lemma decodeFrom_encode {bs : List UInt8} (h : bs ≠ []) (start : Nat) :
    decodeFrom start (encode bs) = .ok bs := by
  induction bs using encode.induct generalizing start with
  | case1 => exact absurd rfl h
  | case2 a =>
    rw [← decodeLast_one start a]
    simp only [encode, decodeFrom]
  | case3 a b =>
    rw [← decodeLast_two start a b]
    simp only [encode, decodeFrom]
  | case4 a b c rest ih =>
    by_cases hrest : rest = []
    · subst hrest
      rw [← decodeLast_three start a b c]
      simp only [encode, decodeFrom]
    · obtain ⟨e, more, hmore⟩ := List.exists_cons_of_ne_nil (encode_ne_nil hrest)
      have hn := forall_sextets a b c
      simp only [List.forall_mem_cons] at hn
      rw [encode, hmore, decodeFrom, sextetAt_symbol hn.1, sextetAt_symbol hn.2.1,
        sextetAt_symbol hn.2.2.1, sextetAt_symbol hn.2.2.2.1, ← hmore]
      simp only [bind, Except.bind, ih hrest, bytesOf_sextets]
      rfl

/-- Groups that are read are the written form of their bytes. -/
lemma decodeFrom_eq_ok {start : Nat} {symbols bs : List UInt8}
    (h : decodeFrom start symbols = .ok bs) : symbols = encode bs := by
  induction start, symbols using decodeFrom.induct generalizing bs with
  | case1 start a b c d e rest ih =>
    rw [decodeFrom] at h
    obtain ⟨w, ha, h⟩ := bind_eq_ok_iff.mp h
    obtain ⟨x, hb, h⟩ := bind_eq_ok_iff.mp h
    obtain ⟨y, hc, h⟩ := bind_eq_ok_iff.mp h
    obtain ⟨z, hd, h⟩ := bind_eq_ok_iff.mp h
    obtain ⟨more, hrest, h⟩ := bind_eq_ok_iff.mp h
    cases h
    obtain ⟨hw, rfl⟩ := eq_symbol_of_sextetAt ha
    obtain ⟨hx, rfl⟩ := eq_symbol_of_sextetAt hb
    obtain ⟨hy, rfl⟩ := eq_symbol_of_sextetAt hc
    obtain ⟨hz, rfl⟩ := eq_symbol_of_sextetAt hd
    rw [encode_bytesOf hw hx hy hz, ← ih hrest]
  | case2 start group hshort =>
    rw [decodeFrom] at h
    · refine decodeLast_eq_ok ?_ h
      match group, hshort with
      | [], _ | [_], _ | [_, _], _ | [_, _, _], _ | [_, _, _, _], _ => simp
      | a :: b :: c :: d :: e :: rest, hshort => exact (hshort a b c d e rest rfl).elim
    · exact hshort

/-- A text is read as a byte sequence exactly if it is the written form of that sequence. -/
theorem decode_eq_ok_iff {symbols bs : List UInt8} :
    decode symbols = .ok bs ↔ symbols = encode bs := by
  constructor
  · intro h
    unfold decode at h
    split at h
    · cases h
      rfl
    · split at h
      · split_ifs at h
        exact decodeFrom_eq_ok h
      · rename_i hlast
        rw [List.getLast?_eq_none_iff.mp hlast]
        cases h
        rfl
  · rintro rfl
    by_cases hbs : bs = []
    · rw [hbs]
      rfl
    · have hmod := length_encode_mod_four bs
      have hread := decodeFrom_encode hbs 0
      unfold decode
      split
      · rename_i hnil
        exact absurd hnil (encode_ne_nil hbs)
      · split
        · rw [if_neg (by omega), hread]
        · rename_i hlast
          exact absurd (List.getLast?_eq_none_iff.mp hlast) (encode_ne_nil hbs)

end Base64

end SvgDisplayList
