import SvgDisplayList.Proofs.Number.Rounding

/-!
# Sums, differences and quotients

Changing the sign of a number, or taking it away, changes the value alike (`value_neg`,
`value_abs`).  A sum is taken on the smaller of the two exponents, where it is exact, and rounded
once (`nearest_add`); a difference is the sum with the other sign (`nearest_sub`).  A quotient is
not exact on any exponent, so it is cut on one that is small enough and rounded (`nearest_div`).

What is not a number stays what it is in every operation (`isNaN_sub_left`, `isNaN_div_left`).
Equal numbers differ at most by the sign of a zero (`agrees_of_beq`), and so do their differences.
-/

namespace SvgDisplayList

namespace Binary32

open Float.Model Float.Model.UnpackedFloat

/-! ## Signs -/

/-- Parts of numbers are put together and taken apart again without a change. -/
lemma unpack_pack_of_inRange {u : UnpackedFloat} (h : InRange u) :
    (Float32.Model.pack u).unpack = u := by
  cases u with
  | notANumber => rfl
  | infinity s => exact unpack_pack_infinity s
  | zero s => exact unpack_pack_zero s
  | finite s m e hm => exact unpack_pack_finite h.1 h.2

/-- Parts with the other sign are in range. -/
lemma InRange.neg {u : UnpackedFloat} (h : InRange u) : InRange u.neg := by
  cases u <;> exact h

/-- Parts without their sign are in range. -/
lemma InRange.abs {u : UnpackedFloat} (h : InRange u) : InRange u.abs := by
  cases u <;> exact h

/-- A number with the other sign has the same parts but for that. -/
lemma unpack_neg (x : Float32) : (-x).toModel.unpack = x.toModel.unpack.neg :=
  unpack_pack_of_inRange (inRange_unpack x).neg

/-- A number without its sign has the same parts but for that. -/
lemma unpack_abs (x : Float32) : x.abs.toModel.unpack = x.toModel.unpack.abs :=
  unpack_pack_of_inRange (inRange_unpack x).abs

/-- The other sign changes the sign of a value. -/
lemma signed_neg (s : Sign) (q : ℚ) : signed (-s) q = -signed s q := by
  cases s
  · exact (neg_neg q).symm
  · rfl

/-- The value of a number with the other sign. -/
theorem value_neg (x : Float32) : value (-x) = -value x := by
  unfold value
  rw [unpack_neg]
  cases x.toModel.unpack with
  | notANumber | zero => exact neg_zero.symm
  | infinity s => exact signed_neg s _
  | finite s m e hm => exact signed_neg s _

/-- A number with the other sign is one exactly if the number is. -/
lemma isNaN_neg (x : Float32) : (-x).isNaN = x.isNaN := by
  rw [isNaN_eq, isNaN_eq, unpack_neg]
  cases x.toModel.unpack <;> rfl

/-- The value of a number without its sign. -/
theorem value_abs (x : Float32) : value x.abs = |value x| := by
  have hsigned : ∀ (s : Sign) (q : ℚ), 0 ≤ q → q = |signed s q| := by
    intro s q hq
    cases s
    · exact (abs_neg q ▸ abs_of_nonneg hq).symm
    · exact (abs_of_nonneg hq).symm
  unfold value
  rw [unpack_abs]
  cases x.toModel.unpack with
  | notANumber | zero => exact abs_zero.symm
  | infinity s => exact hsigned s _ (zpow_nonneg (by norm_num) _)
  | finite s m e hm => exact hsigned s _ (mul_nonneg m.cast_nonneg (zpow_nonneg (by norm_num) _))

/-- A number without its sign is one exactly if the number is. -/
lemma isNaN_abs (x : Float32) : x.abs.isNaN = x.isNaN := by
  rw [isNaN_eq, isNaN_eq, unpack_abs]
  cases x.toModel.unpack <;> rfl

/-- A number without its sign is as finite as the number. -/
lemma isFinite_abs {x : Float32} (hx : x.isFinite = true) : x.abs.isFinite = true := by
  rw [isFinite_iff] at hx ⊢
  rwa [isNaN_abs, value_abs, abs_abs]

/-! ## Sums -/

/-- Lowering an exponent multiplies the mantissa. -/
lemma decreaseExponent_eq {m : Nat} {e t : Int} (h : t ≤ e) :
    ∃ k : Nat, e = t + k ∧ decreaseExponent m e t = (m * 2 ^ k, t) := by
  refine ⟨(e - t).toNat, by omega, ?_⟩
  refine Prod.ext (Nat.shiftLeft_eq m _) ?_
  change e - ((e - t).toNat : Int) = t
  omega

/-- Lowering an exponent leaves a magnitude with a sign what it is. -/
lemma apply_decreaseExponent (s : Sign) (m : Nat) {e t : Int} (h : t ≤ e) :
    ((s.apply (decreaseExponent m e t).1 : Int) : ℚ) * 2 ^ t = signed s (m * 2 ^ e) := by
  obtain ⟨k, hk, heq⟩ := decreaseExponent_eq (m := m) h
  have hvalue : ((m * 2 ^ k : Nat) : ℚ) * 2 ^ t = m * 2 ^ e := by
    have hscaled := mul_two_pow_mul_zpow m k e
    rwa [hk, add_sub_cancel_right, ← hk] at hscaled
  rw [heq]
  cases s with
  | negative =>
    change ((-((m * 2 ^ k : Nat) : Int) : Int) : ℚ) * 2 ^ t = -(m * 2 ^ e)
    rw [← hvalue]
    push_cast
    ring
  | positive => exact_mod_cast hvalue

/-- A magnitude is rounded to a nearest value, whatever its exponent is. -/
lemma nearest_round {m : Nat} (hm : 0 < m) (e : Int) (s : Sign) :
    (Float32.ofModel (.pack (UnpackedFloat.round Format.binary32 s m e))).isNaN = false ∧
      Nearest (signed s (m * 2 ^ e))
        (value (.ofModel (.pack (UnpackedFloat.round Format.binary32 s m e)))) := by
  unfold UnpackedFloat.round
  dsimp only
  rcases Int.le_total e (Format.binary32.targetExponent (totalExponent m e)) with hle | hle
  · -- the exponent need not be lowered
    have hsame : decreaseExponent m e (Format.binary32.targetExponent (totalExponent m e)) =
        (m, e) := by
      have hnone : (e - Format.binary32.targetExponent (totalExponent m e)).toNat = 0 := by omega
      unfold decreaseExponent
      rw [hnone]
      simp
    rw [hsame]
    exact nearest_roundWithAccuracy hm hle s
  · obtain ⟨k, hk, heq⟩ := decreaseExponent_eq (m := m) hle
    have htotal : totalExponent (m * 2 ^ k) (Format.binary32.targetExponent (totalExponent m e)) =
        totalExponent m e := by
      conv_lhs => rw [totalExponent, log2_mul_two_pow hm]
      conv_rhs => rw [totalExponent]
      push_cast
      linarith
    have hvalue := mul_two_pow_mul_zpow m k e
    rw [show e - (k : Int) = Format.binary32.targetExponent (totalExponent m e) by omega] at hvalue
    rw [heq]
    dsimp only
    rw [← hvalue]
    exact nearest_roundWithAccuracy (Nat.mul_pos hm (Nat.two_pow_pos k)) (by rw [htotal]) s

/-- An integer multiple of a power of two is rounded to a nearest value. -/
lemma nearest_normalize (n e : Int) :
    (Float32.ofModel (.pack (UnpackedFloat.normalize Format.binary32 n e .positive))).isNaN =
        false ∧
      Nearest (n * 2 ^ e)
        (value (.ofModel (.pack (UnpackedFloat.normalize Format.binary32 n e .positive)))) := by
  unfold UnpackedFloat.normalize
  rcases lt_trichotomy n 0 with hn | rfl | hn
  · have hmagnitude : (((-n).toNat : Nat) : ℚ) = -n := by
      have hcast : (((-n).toNat : Nat) : Int) = -n := Int.toNat_of_nonneg (by omega)
      exact_mod_cast congrArg (Int.cast : Int → ℚ) hcast
    have hnearest := nearest_round (show 0 < (-n).toNat by omega) e .negative
    rw [compare_lt_iff_lt.mpr hn]
    rw [hmagnitude] at hnearest
    simpa only [signed, neg_mul, neg_neg] using hnearest
  · rw [compare_eq_iff_eq.mpr rfl, Int.cast_zero, MulZeroClass.zero_mul]
    exact nearest_pack_zero .positive
  · have hmagnitude : ((n.toNat : Nat) : ℚ) = n := by
      have hcast : ((n.toNat : Nat) : Int) = n := Int.toNat_of_nonneg hn.le
      exact_mod_cast congrArg (Int.cast : Int → ℚ) hcast
    have hnearest := nearest_round (show 0 < n.toNat by omega) e .positive
    rw [compare_gt_iff_gt.mpr hn]
    rwa [hmagnitude] at hnearest

/-- A number that is put together from its parts is rounded to itself. -/
lemma nearest_self {x : Float32} (hx : x.isNaN = false) :
    (Float32.ofModel (.pack x.toModel.unpack)).isNaN = false ∧
      Nearest (value x) (value (.ofModel (.pack x.toModel.unpack))) := by
  rw [ofModel_pack_unpack]
  exact ⟨hx, Nearest.refl _⟩

/-- The sum of finite numbers is nearest to the exact sum. -/
theorem nearest_add {x y : Float32} (hx : x.isFinite = true) (hy : y.isFinite = true) :
    (x + y).isNaN = false ∧ Nearest (value x + value y) (value (x + y)) := by
  have hadd : x + y = .ofModel (.pack (UnpackedFloat.add Format.binary32 x.toModel.unpack
    y.toModel.unpack)) := rfl
  have hself := nearest_self (not_isNaN_of_isFinite hx)
  have hself' := nearest_self (not_isNaN_of_isFinite hy)
  change x.toModel.unpack.isFinite = true at hx
  change y.toModel.unpack.isFinite = true at hy
  rw [hadd]
  unfold value at hself hself' ⊢
  cases hu : x.toModel.unpack with
  | notANumber | infinity => rw [hu] at hx; cases hx
  | zero s =>
    rw [partsValue, AddZeroClass.zero_add]
    rw [hu] at hself
    cases hv : y.toModel.unpack with
    | notANumber | infinity => rw [hv] at hy; cases hy
    | zero t =>
      rw [partsValue]
      cases s <;> cases t <;> exact nearest_pack_zero _
    | finite t n f hn =>
      rw [hv] at hself'
      exact hself'
  | finite s m e hm =>
    rw [hu] at hself
    cases hv : y.toModel.unpack with
    | notANumber | infinity => rw [hv] at hy; cases hy
    | zero t =>
      rw [partsValue, partsValue, AddZeroClass.add_zero]
      exact hself
    | finite t n f hn =>
      have hsum := nearest_normalize
        (s.apply (decreaseExponent m e (Min.min e f)).1 +
          t.apply (decreaseExponent n f (Min.min e f)).1)
        (Min.min e f)
      rw [Int.cast_add, add_mul, apply_decreaseExponent s m (Int.min_le_left e f),
        apply_decreaseExponent t n (Int.min_le_right e f)] at hsum
      exact hsum

/-- The sum of finite numbers is the exact sum rounded. -/
theorem rounds_add {x y : Float32} (hx : x.isFinite = true) (hy : y.isFinite = true) :
    (x + y).isNaN = false ∧ Rounds (value x + value y) (value (x + y)) :=
  (nearest_add hx hy).imp_right Nearest.rounds

/-! ## Differences -/

/-- Taking one number from another means adding it with the other sign. -/
lemma sub_eq_add (x y : Float32) : x - y = x + -y := by
  have hsub : x - y = .ofModel (.pack (UnpackedFloat.sub Format.binary32 x.toModel.unpack
    y.toModel.unpack)) := rfl
  have hadd : x + -y = .ofModel (.pack (UnpackedFloat.add Format.binary32 x.toModel.unpack
    (-y).toModel.unpack)) := rfl
  rw [hsub, hadd, unpack_neg]
  congr 2
  cases x.toModel.unpack <;> cases y.toModel.unpack
  case finite.finite s m e hm t n f hn =>
    have hsign (a b : Int) : s.apply a - t.apply b = s.apply a + (-t).apply b := by
      cases t
      · exact sub_neg_eq_add (s.apply a) b
      · exact sub_eq_add_neg (s.apply a) b
    simp only [UnpackedFloat.sub, UnpackedFloat.add, UnpackedFloat.neg, hsign]
  all_goals rfl

/-- The other sign leaves a number finite. -/
lemma isFinite_neg {x : Float32} (hx : x.isFinite = true) : (-x).isFinite = true := by
  rw [isFinite_iff] at hx ⊢
  rwa [isNaN_neg, value_neg, abs_neg]

/-- The difference of finite numbers is nearest to the exact difference. -/
theorem nearest_sub {x y : Float32} (hx : x.isFinite = true) (hy : y.isFinite = true) :
    (x - y).isNaN = false ∧ Nearest (value x - value y) (value (x - y)) := by
  have hadd := nearest_add hx (isFinite_neg hy)
  rwa [← sub_eq_add, value_neg, ← sub_eq_add_neg] at hadd

/-- The difference of finite numbers is the exact difference rounded. -/
theorem rounds_sub {x y : Float32} (hx : x.isFinite = true) (hy : y.isFinite = true) :
    (x - y).isNaN = false ∧ Rounds (value x - value y) (value (x - y)) :=
  (nearest_sub hx hy).imp_right Nearest.rounds

/-! ## Quotients -/

/-- A quotient of mantissas is cut on an exponent that is small enough to round it. -/
lemma divCore_eq {m n : Nat} (hm : 0 < m) (e f : Int) :
    ∃ k : Nat, divCore Format.binary32 m e n f =
        (m * 2 ^ k / n, e - f - k, accuracyOfFraction (m * 2 ^ k % n) n) ∧
      (2 ^ 23 * n ≤ m * 2 ^ k ∨ e - f - k ≤ -149) := by
  obtain ⟨-, hbits, hmin⟩ := format_eq
  unfold divCore
  dsimp only
  rw [Format.targetExponent, hbits, hmin, totalExponent, totalExponent]
  generalize ht : Min.min (e - f) (Max.max ((m.log2 : Int) + 1 + e - (n.log2 + 1 + f) - (24 : Nat))
    (-149)) = t
  refine ⟨(e - f - t).toNat, ?_, ?_⟩
  · rw [Nat.shiftLeft_eq, show e - f - ((e - f - t).toNat : Int) = t by omega]
  · rcases Int.lt_or_le (-149) t with hlarge | hsmall
    · -- the exponent is taken from the sizes, which leave room for a mantissa of full length
      refine Or.inl ?_
      have hroom : 23 + (n.log2 + 1) ≤ m.log2 + (e - f - t).toNat := by omega
      calc 2 ^ 23 * n ≤ 2 ^ 23 * 2 ^ (n.log2 + 1) := Nat.mul_le_mul_left _ Nat.lt_log2_self.le
        _ = 2 ^ (23 + (n.log2 + 1)) := (Nat.pow_add ..).symm
        _ ≤ 2 ^ (m.log2 + (e - f - t).toNat) := Nat.pow_le_pow_right (by decide) hroom
        _ = 2 ^ m.log2 * 2 ^ (e - f - t).toNat := Nat.pow_add ..
        _ ≤ m * 2 ^ (e - f - t).toNat := Nat.mul_le_mul_right _ (Nat.log2_self_le hm.ne')
    · exact Or.inr (by omega)

/-- Signs are divided with the magnitudes. -/
lemma signed_div (s t : Sign) (p q : ℚ) : signed (s / t) (p / q) = signed s p / signed t q := by
  cases s <;> cases t
  · exact (neg_div_neg_eq p q).symm
  · exact (neg_div q p).symm
  · exact (div_neg p).symm
  · rfl

/-- The quotient of finite numbers is nearest to the exact quotient. -/
theorem nearest_div {x y : Float32} (hx : x.isFinite = true) (hy : y.isFinite = true)
    (hne : value y ≠ 0) : (x / y).isNaN = false ∧ Nearest (value x / value y) (value (x / y)) := by
  have hdiv : x / y = .ofModel (.pack (UnpackedFloat.div Format.binary32 x.toModel.unpack
    y.toModel.unpack)) := rfl
  change x.toModel.unpack.isFinite = true at hx
  change y.toModel.unpack.isFinite = true at hy
  rw [hdiv]
  unfold value at hne ⊢
  cases hv : y.toModel.unpack with
  | notANumber | infinity => rw [hv] at hy; cases hy
  | zero t => rw [hv] at hne; exact absurd rfl hne
  | finite t n f hn =>
    cases hu : x.toModel.unpack with
    | notANumber | infinity => rw [hu] at hx; cases hx
    | zero s =>
      rw [partsValue, zero_div]
      exact nearest_pack_zero (s / t)
    | finite s m e hm =>
      obtain ⟨k, hcore, hlong⟩ := divCore_eq (n := n) hm e f
      have hnearest := nearest_cut hn hlong (s / t)
      have hquotient : ((m * 2 ^ k : Nat) : ℚ) / n * 2 ^ (e - f - k) = m * 2 ^ e / (n * 2 ^ f) := by
        rw [zpow_sub₀ (by norm_num), zpow_sub₀ (by norm_num), zpow_natCast]
        push_cast
        field_simp
      rw [hquotient, signed_div] at hnearest
      simp only [UnpackedFloat.div, hcore]
      exact hnearest

/-- The quotient of finite numbers is the exact quotient rounded. -/
theorem rounds_div {x y : Float32} (hx : x.isFinite = true) (hy : y.isFinite = true)
    (hne : value y ≠ 0) :
    (x / y).isNaN = false ∧ Rounds (value x / value y) (value (x / y)) :=
  (nearest_div hx hy hne).imp_right Nearest.rounds

/-! ## What is not a number -/

/-- What is not a number is none after a subtraction. -/
lemma isNaN_sub_left {x : Float32} (h : x.isNaN = true) (y : Float32) : (x - y).isNaN = true := by
  have hsub : (x - y).isNaN = (Float32.Model.pack (UnpackedFloat.sub Format.binary32
    x.toModel.unpack y.toModel.unpack)).unpack.isNaN := rfl
  rw [isNaN_eq] at h
  cases hx : x.toModel.unpack with
  | notANumber =>
    have hnone (v : UnpackedFloat) :
        UnpackedFloat.sub Format.binary32 .notANumber v = .notANumber := by
      cases v <;> rfl
    rw [hsub, hx, hnone]
    rfl
  | infinity | zero | finite => rw [hx] at h; cases h

/-- What is not a number is none after a division. -/
lemma isNaN_div_left {x : Float32} (h : x.isNaN = true) (y : Float32) : (x / y).isNaN = true := by
  have hdiv : (x / y).isNaN = (Float32.Model.pack (UnpackedFloat.div Format.binary32
    x.toModel.unpack y.toModel.unpack)).unpack.isNaN := rfl
  rw [isNaN_eq] at h
  cases hx : x.toModel.unpack with
  | notANumber =>
    have hnone (v : UnpackedFloat) :
        UnpackedFloat.div Format.binary32 .notANumber v = .notANumber := by
      cases v <;> rfl
    rw [hdiv, hx, hnone]
    rfl
  | infinity | zero | finite => rw [hx] at h; cases h

/-! ## Equal numbers -/

/-- Parts that compare as equal are the same, or both are zero. -/
lemma sameParts_of_compare {u v : UnpackedFloat} (h : u.compare v = some .eq) : SameParts u v := by
  have hfinite {m n : Nat} {e f : Int} (h : (compare e f).then (compare m n) = .eq) :
      e = f ∧ m = n := by
    rwa [Ordering.then_eq_eq, compare_eq_iff_eq, compare_eq_iff_eq] at h
  cases u with
  | notANumber => cases v <;> cases h
  | zero s =>
    cases v with
    | zero t => exact Or.inr ⟨⟨s, rfl⟩, t, rfl⟩
    | notANumber => cases h
    | infinity t | finite t n f hn => cases t <;> cases h
  | infinity s =>
    cases v with
    | infinity t =>
      cases s <;> cases t
      case negative.negative | positive.positive => exact Or.inl rfl
      all_goals cases h
    | notANumber => cases h
    | zero t | finite t n f hn => cases s <;> cases h
  | finite s m e hm =>
    cases v with
    | finite t n f hn =>
      cases s <;> cases t
      case negative.negative =>
        obtain ⟨rfl, rfl⟩ := hfinite (Ordering.swap_eq_eq.mp (Option.some.inj h))
        exact Or.inl rfl
      case positive.positive =>
        obtain ⟨rfl, rfl⟩ := hfinite (Option.some.inj h)
        exact Or.inl rfl
      all_goals cases h
    | notANumber => cases h
    | infinity t => cases t <;> cases h
    | zero t => cases s <;> cases h

/-- Equal numbers have the same parts, or both are zero. -/
lemma agrees_of_beq {x y : Float32} (h : (x == y) = true) : Agrees x y := by
  change (x.toModel.unpack.compare y.toModel.unpack == some .eq) = true at h
  exact agrees_iff.mpr (sameParts_of_compare (beq_iff_eq.mp h))

/-- Numbers that agree are equal. -/
lemma Agrees.beq {x y : Float32} (h : Agrees x y) (hx : x.isNaN = false) : (x == y) = true := by
  rcases h with rfl | ⟨hzero, hzero'⟩
  · exact beq_iff.mpr ⟨hx, hx, rfl⟩
  · obtain ⟨-, hnumber, hvalue⟩ := beq_iff.mp hzero
    obtain ⟨hy, -, hvalue'⟩ := beq_iff.mp hzero'
    exact beq_iff.mpr ⟨hx, hy, hvalue.trans hvalue'.symm⟩

/-- The differences of equal finite numbers are equal. -/
lemma sub_beq_sub {x x' y y' : Float32} (hx : (x == x') = true) (hy : (y == y') = true)
    (hxfinite : x.isFinite = true) (hyfinite : y.isFinite = true) :
    (x - y == x' - y') = true := by
  have hneg : (-y == -y') = true := by
    rw [beq_iff, isNaN_neg, isNaN_neg, value_neg, value_neg, neg_inj]
    exact beq_iff.mp hy
  have hagrees : Agrees (x - y) (x' - y') := by
    rw [sub_eq_add, sub_eq_add]
    exact (agrees_of_beq hx).add (agrees_of_beq hneg)
  exact hagrees.beq (rounds_sub hxfinite hyfinite).1

/-- The difference to a finite number that is not greater is not negative. -/
lemma max_sub_zero {x y : Float32} (hx : x.isFinite = true) (hy : y.isFinite = true)
    (hle : y ≤ x) : max (x - y) 0 = x - y := by
  obtain ⟨hnan, hrounds⟩ := rounds_sub hx hy
  have hnonneg := hrounds.ge_of_ge isValue_zero (sub_nonneg.mpr (le_iff.mp hle).2.2)
  have hnot : ¬ x - y < 0 := fun hlt => absurd (lt_iff.mp hlt).2.2 (not_lt.mpr hnonneg)
  unfold max
  rw [if_neg (by rw [hnan]; decide), if_neg (by decide), if_neg hnot]

/-- Of equal numbers, both are finite or none is. -/
lemma isFinite_congr {x y : Float32} (h : (x == y) = true) :
    x.isFinite = true ↔ y.isFinite = true := by
  obtain ⟨hx, hy, hvalue⟩ := beq_iff.mp h
  rw [isFinite_iff, isFinite_iff, hx, hy, hvalue]

end Binary32

end SvgDisplayList
