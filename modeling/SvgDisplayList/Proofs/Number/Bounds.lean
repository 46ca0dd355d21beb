import SvgDisplayList.Proofs.Number.Arithmetic

/-!
# Bounds on numbers

A computation is followed by the bounds of its intermediate results.  The bounds are whole numbers
of sixty-fourths (`Between`): these are values of numbers themselves, so rounding crosses none of
them, and the bounds of a sum, a difference, a product or a quotient are those of the exact result,
widened to the next sixty-fourths.

Numbers are also compared by the bit patterns of their magnitudes, which have the same order as the
magnitudes (`bits_lt_iff`).
-/

namespace SvgDisplayList

namespace Binary32

open Float.Model Float.Model.UnpackedFloat

/-! ## Sixty-fourths -/

/-- A natural number of sixty-fourths is a value unless it is too long. -/
lemma isValue_natCast_div {n : Nat} (hn : n < 2 ^ 24) : IsValue ((n : ℚ) / 64) := by
  have hcast : (n : ℚ) ≤ 2 ^ 24 := by exact_mod_cast hn.le
  have hsixth : (n : ℚ) * 2 ^ (-6 : ℤ) = n / 64 := by
    norm_num
    ring
  rw [← hsixth]
  refine isValue_mul_zpow hn.le (by decide) ?_
  calc (n : ℚ) * 2 ^ (-6 : ℤ) ≤ 2 ^ 24 * 2 ^ (-6 : ℤ) :=
        mul_le_mul_of_nonneg_right hcast (by positivity)
    _ ≤ 2 ^ (128 : ℤ) := by norm_num

/-- A whole number of sixty-fourths is a value unless it is too long. -/
lemma isValue_div {a : ℤ} (hlower : -2 ^ 24 < a) (hupper : a < 2 ^ 24) :
    IsValue ((a : ℚ) / 64) := by
  obtain ⟨n, rfl | rfl⟩ := Int.eq_nat_or_neg a
  · exact isValue_natCast_div (by omega)
  · have hvalue := (isValue_natCast_div (n := n) (by omega)).neg
    rwa [← neg_div] at hvalue

/-- A number lies between two whole numbers of sixty-fourths. -/
structure Between (a b : ℤ) (x : Float32) : Prop where
  finite : x.isFinite = true
  lower : (a : ℚ) / 64 ≤ value x
  upper : value x ≤ (b : ℚ) / 64

/-- Bounds on a number that is given by its bits can be computed. -/
instance (a b : ℤ) (x : Float32) : Decidable (Between a b x) :=
  decidable_of_iff (x.isFinite = true ∧ (a : ℚ) / 64 ≤ value x ∧ value x ≤ (b : ℚ) / 64)
    ⟨fun ⟨hfinite, hlower, hupper⟩ => ⟨hfinite, hlower, hupper⟩,
      fun ⟨hfinite, hlower, hupper⟩ => ⟨hfinite, hlower, hupper⟩⟩

namespace Between

variable {a b c d lo hi : ℤ} {x y : Float32}

/-- Bounds may be widened. -/
lemma mono (h : Between a b x) (hbounds : lo ≤ a ∧ b ≤ hi) : Between lo hi x := by
  obtain ⟨hlo, hhi⟩ := hbounds
  have hlo' : (lo : ℚ) ≤ a := by exact_mod_cast hlo
  have hhi' : (b : ℚ) ≤ hi := by exact_mod_cast hhi
  exact ⟨h.finite, by linarith [h.lower], by linarith [h.upper]⟩

/-- What an exact result between bounds is rounded to lies between them. -/
lemma of_rounds {q : ℚ} (h : x.isNaN = false ∧ Rounds q (value x))
    (hsmall : -2 ^ 24 < lo ∧ hi < 2 ^ 24) (hlo : (lo : ℚ) / 64 ≤ q) (hhi : q ≤ (hi : ℚ) / 64) :
    Between lo hi x := by
  obtain ⟨hnan, hrounds⟩ := h
  obtain ⟨hlo', hhi'⟩ := hsmall
  have horder : lo ≤ hi := by
    have hcast : (lo : ℚ) ≤ hi := by linarith
    exact_mod_cast hcast
  have hlower := hrounds.ge_of_ge (isValue_div hlo' (by omega)) hlo
  have hupper := hrounds.le_of_le (isValue_div (by omega) hhi') hhi
  refine ⟨isFinite_iff.mpr ⟨hnan, abs_lt.mpr ⟨?_, ?_⟩⟩, hlower, hupper⟩
  · have hcast : ((-2 ^ 24 : ℤ) : ℚ) ≤ lo := by exact_mod_cast hlo'.le
    push_cast at hcast
    norm_num at hcast ⊢
    linarith
  · have hcast : (hi : ℚ) ≤ ((2 ^ 24 : ℤ) : ℚ) := by exact_mod_cast hhi'.le
    push_cast at hcast
    norm_num at hcast ⊢
    linarith

/-- Bounds on a number with the other sign. -/
lemma neg (h : Between a b x) : Between (-b) (-a) (-x) := by
  refine ⟨isFinite_neg h.finite, ?_, ?_⟩
  · rw [value_neg]
    push_cast
    linarith [h.upper]
  · rw [value_neg]
    push_cast
    linarith [h.lower]

/-- Bounds on a sum. -/
theorem add (hx : Between a b x) (hy : Between c d y)
    (hbounds : lo ≤ a + c ∧ b + d ≤ hi) (hsmall : -2 ^ 24 < lo ∧ hi < 2 ^ 24) :
    Between lo hi (x + y) := by
  obtain ⟨hlo, hhi⟩ := hbounds
  have hlo' : (lo : ℚ) ≤ a + c := by exact_mod_cast hlo
  have hhi' : (b + d : ℚ) ≤ hi := by exact_mod_cast hhi
  exact of_rounds (rounds_add hx.finite hy.finite) hsmall (by linarith [hx.lower, hy.lower])
    (by linarith [hx.upper, hy.upper])

/-- Bounds on a difference. -/
theorem sub (hx : Between a b x) (hy : Between c d y)
    (hbounds : lo ≤ a - d ∧ b - c ≤ hi) (hsmall : -2 ^ 24 < lo ∧ hi < 2 ^ 24) :
    Between lo hi (x - y) := by
  rw [sub_eq_add]
  exact hx.add hy.neg (by omega) hsmall

/-- Bounds on a product of numbers that are not negative. -/
theorem mul (hx : Between a b x) (hy : Between c d y) (hnonneg : 0 ≤ a ∧ 0 ≤ c)
    (hbounds : 64 * lo ≤ a * c ∧ b * d ≤ 64 * hi) (hsmall : -2 ^ 24 < lo ∧ hi < 2 ^ 24) :
    Between lo hi (x * y) := by
  obtain ⟨ha, hc⟩ := hnonneg
  obtain ⟨hlo, hhi⟩ := hbounds
  have ha' : (0 : ℚ) ≤ a := by exact_mod_cast ha
  have hc' : (0 : ℚ) ≤ c := by exact_mod_cast hc
  have hlo' : (64 * lo : ℚ) ≤ a * c := by exact_mod_cast hlo
  have hhi' : (b * d : ℚ) ≤ 64 * hi := by exact_mod_cast hhi
  have hx0 : (0 : ℚ) ≤ a / 64 := by positivity
  have hy0 : (0 : ℚ) ≤ c / 64 := by positivity
  have hlower := mul_le_mul hx.lower hy.lower hy0 (hx0.trans hx.lower)
  have hupper := mul_le_mul hx.upper hy.upper (hy0.trans hy.lower)
    ((hx0.trans hx.lower).trans hx.upper)
  exact of_rounds (rounds_mul hx.finite hy.finite) hsmall (by linarith) (by linarith)

/-- A bound on the magnitude of a number. -/
lemma magnitude_le (h : Between (-a) a x) : |value x| ≤ (a : ℚ) / 64 := by
  have hlower := h.lower
  push_cast at hlower
  exact abs_le.mpr ⟨by linarith, h.upper⟩

/-- Bounds on the magnitude of a product. -/
theorem mul_symm (hx : Between (-a) a x) (hy : Between (-c) c y) (hbound : a * c ≤ 64 * hi)
    (hsmall : hi < 2 ^ 24) : Between (-hi) hi (x * y) := by
  have hbound' : (a * c : ℚ) ≤ 64 * hi := by exact_mod_cast hbound
  have hproduct : |value x * value y| ≤ (hi : ℚ) / 64 := by
    have hfactors := mul_le_mul hx.magnitude_le hy.magnitude_le (abs_nonneg _)
      ((abs_nonneg _).trans hx.magnitude_le)
    rw [abs_mul]
    linarith
  obtain ⟨hlower, hupper⟩ := abs_le.mp hproduct
  refine of_rounds (rounds_mul hx.finite hy.finite) ⟨by omega, hsmall⟩ ?_ hupper
  push_cast
  linarith

/-- Bounds on the magnitude of a quotient. -/
theorem div_symm (hx : Between (-a) a x) (hy : y.isFinite = true) (hd : 0 < d)
    (hlower : (d : ℚ) / 64 ≤ value y) (hbound : 64 * a ≤ hi * d) (hsmall : hi < 2 ^ 24) :
    Between (-hi) hi (x / y) := by
  have hd' : (0 : ℚ) < d := by exact_mod_cast hd
  have hbound' : (64 * a : ℚ) ≤ hi * d := by exact_mod_cast hbound
  have hpos : 0 < value y := by linarith [div_pos hd' (by norm_num : (0 : ℚ) < 64)]
  have hquotient : |value x / value y| ≤ (hi : ℚ) / 64 := by
    have ha : (0 : ℚ) ≤ a := by linarith [(abs_nonneg _).trans hx.magnitude_le]
    have hhi : (0 : ℚ) ≤ hi := nonneg_of_mul_nonneg_left (by linarith) hd'
    rw [abs_div, abs_of_pos hpos, div_le_iff₀ hpos]
    calc |value x| ≤ a / 64 := hx.magnitude_le
      _ ≤ hi / 64 * (d / 64) := by linarith
      _ ≤ hi / 64 * value y := mul_le_mul_of_nonneg_left hlower (by positivity)
  obtain ⟨hlower, hupper⟩ := abs_le.mp hquotient
  refine of_rounds (rounds_div hx.finite hy hpos.ne') ⟨by omega, hsmall⟩ ?_ hupper
  push_cast
  linarith

end Between

/-! ## Magnitudes and bit patterns -/

/-- The patterns of canonical numbers have the order of their values. -/
lemma pattern_lt_iff {m n : Nat} {e f : Int} (h : Canonical m e) (h' : Canonical n f) :
    pattern m e < pattern n f ↔ (m : ℚ) * 2 ^ e < n * 2 ^ f := by
  have hlexicographic : pattern m e < pattern n f ↔ e < f ∨ e = f ∧ m < n := by
    have hfull := h.full
    have hfull' := h'.full
    have hlt := h.lt
    have hlt' := h'.lt
    have hle := h.le
    have hle' := h'.le
    unfold pattern
    split_ifs <;> omega
  rw [hlexicographic, ← compare_lt_iff_lt (a := (m : ℚ) * 2 ^ e), ← h.compare_eq h',
    Ordering.then_eq_lt, compare_lt_iff_lt, compare_eq_iff_eq, compare_lt_iff_lt]

/-- The bits of the magnitude of a number are the pattern of a canonical number of its value, up to
the pattern of the infinities. -/
lemma exists_pattern {x : Float32} (hx : x.isNaN = false) :
    ∃ m e, Canonical m e ∧ |value x| = m * 2 ^ e ∧ x.abs.toBits.toNat = pattern m e ∧
      pattern m e ≤ 0x7f800000 := by
  have hinfinity : Canonical (2 ^ 23) 105 := ⟨by decide, by decide, by decide⟩
  have hbits : x.abs.toBits.toNat =
      (UnpackedFloat.pack Format.binary32 x.toModel.unpack.abs).toNat := rfl
  have hrange := inRange_unpack x
  have hmagnitude (s : Sign) {q : ℚ} (hq : 0 ≤ q) : |signed s q| = q := by
    cases s
    · exact (abs_neg q).trans (abs_of_nonneg hq)
    · exact abs_of_nonneg hq
  rw [isNaN_eq] at hx
  rw [hbits]
  unfold value
  cases hu : x.toModel.unpack with
  | notANumber => rw [hu] at hx; cases hx
  | zero s =>
    exact ⟨0, -149, ⟨by decide, by decide, by decide⟩, by simp [partsValue], rfl, by decide⟩
  | infinity s =>
    refine ⟨2 ^ 23, 105, hinfinity, ?_, rfl, by decide⟩
    rw [partsValue, hmagnitude s (by positivity)]
    norm_num
  | finite s m e hm =>
    rw [hu] at hrange
    have hbelow : pattern m e < pattern (2 ^ 23) 105 := by
      refine (pattern_lt_iff hrange.1 hinfinity).mpr (hrange.pos_and_lt.2.trans_eq ?_)
      norm_num
    have hlast : pattern (2 ^ 23) 105 = 0x7f800000 := by decide
    refine ⟨m, e, hrange.1, hmagnitude s (by positivity), ?_, by omega⟩
    refine (toNat_pack_finite hrange.1).trans ?_
    rw [min_eq_left (by omega)]
    exact Nat.zero_add _

/-- Magnitudes are compared with a canonical number by their bits. -/
theorem bits_lt_iff {x : Float32} (hx : x.isNaN = false) {b : Nat} {q : ℚ} (n : Nat) (f : Int)
    (h : Canonical n f) (hb : pattern n f = b) (hq : (n : ℚ) * 2 ^ f = q) :
    x.abs.toBits.toNat < b ↔ |value x| < q := by
  obtain ⟨m, e, hcanonical, hvalue, hbits, -⟩ := exists_pattern hx
  rw [hbits, hvalue, ← hb, ← hq, pattern_lt_iff hcanonical h]

/-- A number whose magnitude has the bits of zero is zero. -/
lemma value_eq_zero_iff {x : Float32} (hx : x.isNaN = false) :
    x.abs.toBits.toNat = 0 ↔ value x = 0 := by
  obtain ⟨m, e, hcanonical, hvalue, hbits, -⟩ := exists_pattern hx
  have hpattern : pattern m e = 0 ↔ m = 0 := by
    unfold pattern
    split_ifs <;> omega
  rw [hbits, hpattern, ← abs_eq_zero, hvalue]
  simp [zpow_ne_zero]

/-- A number whose magnitude has not the bits of the infinities is finite. -/
lemma isFinite_of_bits {x : Float32} (hx : x.isNaN = false)
    (hbits : x.abs.toBits.toNat ≠ 0x7f800000) : x.isFinite = true := by
  obtain ⟨m, e, -, -, hpattern, hle⟩ := exists_pattern hx
  have hlt := bits_lt_iff (b := 0x7f800000) (q := 2 ^ (128 : ℤ)) hx (2 ^ 23) 105
    ⟨by decide, by decide, by decide⟩ (by decide) (by norm_num)
  exact isFinite_iff.mpr ⟨hx, hlt.mp (by omega)⟩

/-- A number without its sign has no sign bit. -/
lemma signBit_abs {x : Float32} (hx : x.isNaN = false) : signBit x.abs = false := by
  obtain ⟨m, e, -, -, hbits, hle⟩ := exists_pattern hx
  unfold signBit
  rw [hbits, Nat.div_eq_of_lt (by omega)]
  rfl

/-! ## The next natural number -/

/-- The next natural number does not pass a natural number. -/
theorem ceilNat_le {x : Float32} {n : Nat} (h : value x ≤ n) : ceilNat x ≤ n := by
  cases hfinite : x.isFinite with
  | false =>
    unfold ceilNat
    rw [parts?_of_not_isFinite hfinite]
    exact Nat.zero_le n
  | true =>
    obtain ⟨⟨negative, m, e⟩, hparts, hvalue⟩ := parts?_of_isFinite hfinite
    unfold ceilNat
    rw [hparts]
    rw [hvalue] at h
    cases negative with
    | true => cases e <;> exact Nat.zero_le n
    | false =>
      change (m : ℚ) * 2 ^ e ≤ n at h
      cases e with
      | ofNat k =>
        rw [Int.ofNat_eq_natCast, zpow_natCast] at h
        exact_mod_cast h
      | negSucc k =>
        have hstep : (0 : ℚ) < 2 ^ (k + 1) := by positivity
        rw [zpow_negSucc, ← div_eq_mul_inv, div_le_iff₀ hstep] at h
        have hcast : m ≤ n * 2 ^ (k + 1) := by exact_mod_cast h
        have hpos : 0 < 2 ^ (k + 1) := Nat.two_pow_pos _
        change (m + 2 ^ (k + 1) - 1) / 2 ^ (k + 1) ≤ n
        refine Nat.lt_succ_iff.mp ((Nat.div_lt_iff_lt_mul hpos).mpr ?_)
        rw [Nat.succ_mul]
        omega

/-- What is not finite has no next natural number but zero. -/
lemma ceilNat_of_not_isFinite {x : Float32} (h : x.isFinite = false) : ceilNat x = 0 := by
  unfold ceilNat
  rw [parts?_of_not_isFinite h]

end Binary32

end SvgDisplayList
