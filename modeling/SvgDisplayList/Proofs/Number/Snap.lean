import SvgDisplayList.Number.FixedPoint
import SvgDisplayList.Proofs.Number.Rounding

/-!
# Snapping

A number is snapped in two steps: it becomes a whole number of thousandths (`milliPoint`), and that
number is rounded to single precision and divided by a thousand (`rounds_snap`).  Both steps stay
within the fixed-point range, so what has been snapped is finite and at most `2 ^ 31` in magnitude
(`bounded_snap`), whatever it was before, and no step turns a number to the other side of zero
(`snap_nonneg`).

But zero is reached from either side.  A number stays positive exactly if it is finite and at least
half a thousandth (`pos_snap_iff`).
-/

namespace SvgDisplayList

/-! ## Fixed-point numbers -/

/-- A saturated integer is the integer held between the ends of the sixty-four-bit range. -/
lemma toInt_saturate (i : Int) :
    (saturate i).toInt = max (-0x8000000000000000) (min 0x7fffffffffffffff i) := by
  unfold saturate
  refine Int64.toInt_ofInt_of_le ?_ ?_ <;> omega

/-- Rounding away from zero is floor division of the magnitude with half of the divisor added. -/
lemma divRoundAway_eq (i : Int) (den : Nat) :
    divRoundAway i den =
      if 0 ≤ i then (i + (den / 2 : Nat)) / den else -((-i + (den / 2 : Nat)) / den) := by
  unfold divRoundAway
  split_ifs with h
  · exact Int.tdiv_eq_ediv_of_nonneg (by omega)
  · have hneg : i - (den / 2 : Nat) = -(-i + (den / 2 : Nat)) := by omega
    rw [hneg, Int.neg_tdiv, Int.tdiv_eq_ediv_of_nonneg (by omega)]

namespace FixedPoint

/-- A number of thousandths as a fixed-point number. -/
lemma toInt_bits_ofMilli (milli : Int64) :
    (ofMilli milli).bits.toInt = max (-0x8000000000000000) (min 0x7fffffffffffffff
      (if 0 ≤ milli.toInt then (milli.toInt * 4294967296 + 500) / 1000
       else -((-(milli.toInt * 4294967296) + 500) / 1000))) := by
  have hsign : 0 ≤ milli.toInt * 0x100000000 ↔ 0 ≤ milli.toInt := by omega
  unfold ofMilli
  rw [toInt_saturate, divRoundAway_eq]
  simp only [hsign]
  rfl

/-- A fixed-point number as a number of thousandths: no saturation is needed. -/
lemma toInt_toMilli (p : FixedPoint) :
    p.toMilli.toInt =
      if 0 ≤ p.bits.toInt then (p.bits.toInt * 1000 + 2147483648) / 4294967296
      else -((-(p.bits.toInt * 1000) + 2147483648) / 4294967296) := by
  have hlower := p.bits.le_toInt
  have hupper := p.bits.toInt_lt
  have hsign : 0 ≤ p.bits.toInt * 1000 ↔ 0 ≤ p.bits.toInt := by omega
  unfold toMilli
  rw [toInt_saturate, divRoundAway_eq]
  simp only [hsign]
  split_ifs <;> omega

/-- The whole number of thousandths that a number is snapped to. -/
def milliPoint (x : Float32) : Int := (ofNumber x).toMilli.toInt

/-- The thousandths stay within the fixed-point range. -/
lemma abs_milliPoint_le (x : Float32) : |(milliPoint x : ℚ)| ≤ 2147483648000 := by
  have hlower := (ofNumber x).bits.le_toInt
  have hupper := (ofNumber x).bits.toInt_lt
  have hbounds : -2147483648000 ≤ milliPoint x ∧ milliPoint x ≤ 2147483648000 := by
    unfold milliPoint
    rw [toInt_toMilli]
    split_ifs <;> omega
  rw [abs_le]
  exact_mod_cast hbounds

/-- Going through the fixed-point range keeps the side of zero. -/
lemma milliPoint_sign (x : Float32) :
    (0 < milliPoint x ↔ 0 < (milliOf x).toInt) ∧ (0 ≤ milliPoint x ↔ 0 ≤ (milliOf x).toInt) := by
  have hlower := (milliOf x).le_toInt
  have hupper := (milliOf x).toInt_lt
  unfold milliPoint ofNumber
  rw [toInt_toMilli, toInt_bits_ofMilli]
  split_ifs <;> omega

/-- What is not finite has no thousandths. -/
lemma milliOf_of_not_isFinite {x : Float32} (h : x.isFinite = false) : milliOf x = 0 := by
  unfold milliOf
  rw [Binary32.parts?_of_not_isFinite h]

/-- A half is rounded upwards, so the nearest natural number is positive from a half on. -/
lemma roundHalfUp_pos (num : Nat) {den : Nat} (hden : 0 < den) :
    0 < roundHalfUp num den ↔ den ≤ 2 * num := by
  unfold roundHalfUp
  rw [Nat.div_pos_iff]
  omega

/-- The thousandths of a finite number are those of its magnitude, rounded and held within the
sixty-four-bit range. -/
lemma exists_toInt_milliOf {x : Float32} (h : x.isFinite = true) :
    ∃ (negative : Bool) (num den : Nat), 0 < den ∧
      Binary32.value x = Binary32.signed (Binary32.signOf negative) ((num : ℚ) / den) ∧
      (milliOf x).toInt = max (-0x8000000000000000) (min 0x7fffffffffffffff
        (if negative then -(roundHalfUp (1000 * num) den : Int)
          else roundHalfUp (1000 * num) den)) := by
  obtain ⟨p, hp, hvalue⟩ := Binary32.parts?_of_isFinite h
  obtain ⟨hden, hratio⟩ := Binary32.ratio_eq p
  refine ⟨p.negative, p.ratio.1, p.ratio.2, hden, hratio ▸ hvalue, ?_⟩
  unfold milliOf
  rw [hp]
  exact toInt_saturate _

/-- The thousandths of a number are positive from half of one on. -/
lemma toInt_milliOf_pos (x : Float32) :
    0 < (milliOf x).toInt ↔ x.isFinite = true ∧ 1 / 2000 ≤ Binary32.value x := by
  cases hfinite : x.isFinite with
  | false =>
    rw [milliOf_of_not_isFinite hfinite]
    simp
  | true =>
    obtain ⟨negative, num, den, hden, hvalue, hmilli⟩ := exists_toInt_milliOf hfinite
    have hpos : (0 : ℚ) < den := by exact_mod_cast hden
    rw [hmilli, hvalue]
    cases negative with
    | true =>
      have hvalue' : ¬ (1 / 2000 : ℚ) ≤ -(num / den) := by
        have hnonneg : (0 : ℚ) ≤ num / den := by positivity
        linarith
      refine iff_of_false ?_ fun h => hvalue' h.2
      simp
    | false =>
      have hhalf : den ≤ 2 * (1000 * num) ↔ (1 / 2000 : ℚ) ≤ num / den := by
        rw [div_le_div_iff₀ (by norm_num) hpos]
        norm_cast
        omega
      have hround := roundHalfUp_pos (1000 * num) hden
      simp only [Bool.false_eq_true, if_false, true_and]
      refine Iff.trans ?_ (hround.trans hhalf)
      omega

/-- The thousandths of what does not lie below zero are not negative. -/
lemma toInt_milliOf_nonneg {x : Float32} (h : ¬ x < 0) : 0 ≤ (milliOf x).toInt := by
  cases hfinite : x.isFinite with
  | false =>
    rw [milliOf_of_not_isFinite hfinite]
    decide
  | true =>
    obtain ⟨negative, num, den, hden, hvalue, hmilli⟩ := exists_toInt_milliOf hfinite
    have hpos : (0 : ℚ) < den := by exact_mod_cast hden
    have hzero := Binary32.le_of_not_lt (Binary32.not_isNaN_of_isFinite hfinite) rfl h
    have hnonneg : 0 ≤ Binary32.value x := (Binary32.le_iff.mp hzero).2.2
    rw [hmilli]
    cases negative with
    | true =>
      -- a negative number that is not below zero is the negative zero
      have hneg : Binary32.value x = -((num : ℚ) / den) := hvalue
      have hquotient : (num : ℚ) / den ≤ 0 := by linarith
      rw [div_le_iff₀ hpos, MulZeroClass.zero_mul] at hquotient
      have hnone : num = 0 := Nat.le_zero.mp (by exact_mod_cast hquotient)
      have hround : ¬ 0 < roundHalfUp (1000 * num) den := by
        rw [roundHalfUp_pos _ hden]
        omega
      rw [if_pos rfl]
      omega
    | false =>
      rw [if_neg (by decide)]
      omega

end FixedPoint

/-! ## Single-precision numbers -/

open Binary32

/-- An integer is rounded to a number. -/
lemma rounds_ofInt (i : Int) : (ofInt i).isNaN = false ∧ Rounds i (value (ofInt i)) := by
  have hrounds := rounds_ofRatio i.natAbs Nat.one_pos (decide (i < 0))
  have hvalue : signed (signOf (decide (i < 0))) ((i.natAbs : ℚ) / (1 : Nat)) = i := by
    rw [Nat.cast_one, div_one, Nat.cast_natAbs]
    by_cases hneg : i < 0
    · rw [decide_eq_true hneg, abs_of_neg hneg]
      change -((-i : ℤ) : ℚ) = i
      rw [Int.cast_neg, neg_neg]
    · rw [decide_eq_false hneg, abs_of_nonneg (by omega)]
      rfl
  rwa [hvalue] at hrounds

/-- The number of thousandths in the fixed-point range. -/
lemma isValue_milli : IsValue 2147483648000 :=
  isValue_of_eq 16384000 17 ⟨by decide, by decide, by decide⟩ (by norm_num) (by norm_num)

/-- The end of the fixed-point range. -/
lemma isValue_range : IsValue 2147483648 :=
  isValue_of_eq (2 ^ 23) 8 ⟨by decide, by decide, by decide⟩ (by norm_num) (by norm_num)

/-- One. -/
lemma isValue_one : IsValue 1 :=
  isValue_of_eq (2 ^ 23) (-23) ⟨by decide, by decide, by decide⟩ (by norm_num) (by norm_num)

/-- A value below a thousandth. -/
lemma isValue_small : IsValue (1 / 1024) :=
  isValue_of_eq (2 ^ 23) (-33) ⟨by decide, by decide, by decide⟩ (by norm_num) (by norm_num)

/-- A snapped number is a fraction that is rounded: a thousandth of the number of thousandths. -/
lemma exists_snap_eq (x : Float32) :
    ∃ (negative : Bool) (num den : Nat), 0 < den ∧
      signed (signOf negative) ((num : ℚ) / den) =
        value (ofInt (FixedPoint.milliPoint x)) / 1000 ∧
      snap x = ofRatio negative num den := by
  obtain ⟨hnan, hrounds⟩ := rounds_ofInt (FixedPoint.milliPoint x)
  have habs := FixedPoint.abs_milliPoint_le x
  have hfinite : (ofInt (FixedPoint.milliPoint x)).isFinite = true := by
    refine isFinite_iff.mpr ⟨hnan, (hrounds.abs_le_of_abs_le isValue_milli habs).trans_lt ?_⟩
    norm_num
  obtain ⟨p, hp, hvalue⟩ := parts?_of_isFinite hfinite
  obtain ⟨hden, hratio⟩ := ratio_eq p
  refine ⟨p.negative, p.ratio.1, 1000 * p.ratio.2, Nat.mul_pos (by decide) hden, ?_, ?_⟩
  · rw [hvalue, ← hratio]
    push_cast
    cases p.negative
    · change (p.ratio.1 : ℚ) / (1000 * p.ratio.2) = p.ratio.1 / p.ratio.2 / 1000
      rw [mul_comm, div_mul_eq_div_div]
    · change -((p.ratio.1 : ℚ) / (1000 * p.ratio.2)) = -(p.ratio.1 / p.ratio.2) / 1000
      rw [mul_comm, div_mul_eq_div_div, neg_div]
  · unfold FixedPoint.milliPoint at hp
    unfold snap
    rw [hp]

/-- Snapping rounds the thousandths and divides them by a thousand. -/
theorem rounds_snap (x : Float32) :
    (snap x).isNaN = false ∧
      ∃ v, Rounds (FixedPoint.milliPoint x) v ∧ Rounds (v / 1000) (value (snap x)) := by
  obtain ⟨negative, num, den, hden, hquotient, hsnap⟩ := exists_snap_eq x
  obtain ⟨hnan, hrounds⟩ := rounds_ofRatio num hden negative
  rw [hquotient, ← hsnap] at hrounds
  rw [← hsnap] at hnan
  exact ⟨hnan, _, (rounds_ofInt (FixedPoint.milliPoint x)).2, hrounds⟩

/-- What has been snapped has at most the magnitude of the fixed-point range. -/
lemma abs_value_snap_le (x : Float32) : |value (snap x)| ≤ 2147483648 := by
  obtain ⟨-, v, hmilli, hquotient⟩ := rounds_snap x
  have hv := hmilli.abs_le_of_abs_le isValue_milli (FixedPoint.abs_milliPoint_le x)
  refine hquotient.abs_le_of_abs_le isValue_range ?_
  rw [abs_div, abs_of_pos (by norm_num : (0 : ℚ) < 1000), div_le_iff₀ (by norm_num)]
  exact hv.trans (by norm_num)

/-- A number of moderate magnitude: finite, and at most `2 ^ 31` on either side of zero. -/
def Bounded (x : Float32) : Prop := x.isFinite = true ∧ -2147483648 ≤ x ∧ x ≤ 2147483648

/-- Whatever a number was, it is of moderate magnitude after snapping. -/
theorem bounded_snap (x : Float32) : Bounded (snap x) := by
  obtain ⟨hnan, -⟩ := rounds_snap x
  obtain ⟨hlower, hupper⟩ := abs_le.mp (abs_value_snap_le x)
  have hrange : value 2147483648 = 2147483648 := by
    have hparts : (2147483648 : Float32).toModel.unpack =
      .finite .positive (2 ^ 23) 8 (by decide) := rfl
    rw [value, hparts, partsValue, signed]
    norm_num
  have hneg : value (-2147483648) = -2147483648 := by
    have hparts : (-2147483648 : Float32).toModel.unpack =
      .finite .negative (2 ^ 23) 8 (by decide) := rfl
    rw [value, hparts, partsValue, signed]
    norm_num
  refine ⟨isFinite_iff.mpr ⟨hnan, (abs_value_snap_le x).trans_lt (by norm_num)⟩, ?_, ?_⟩
  · exact le_iff.mpr ⟨rfl, hnan, hneg ▸ hlower⟩
  · exact le_iff.mpr ⟨hnan, rfl, hrange ▸ hupper⟩

/-- What has no thousandths below zero is not snapped below zero. -/
lemma value_snap_nonneg {x : Float32} (h : 0 ≤ FixedPoint.milliPoint x) : 0 ≤ value (snap x) := by
  obtain ⟨-, v, hmilli, hquotient⟩ := rounds_snap x
  have hv : 0 ≤ v := hmilli.ge_of_ge isValue_zero (by exact_mod_cast h)
  exact hquotient.ge_of_ge isValue_zero (by positivity)

/-- What has no thousandths above zero is not snapped above zero. -/
lemma value_snap_nonpos {x : Float32} (h : FixedPoint.milliPoint x ≤ 0) : value (snap x) ≤ 0 := by
  obtain ⟨-, v, hmilli, hquotient⟩ := rounds_snap x
  have hv : v ≤ 0 := hmilli.le_of_le isValue_zero (by exact_mod_cast h)
  exact hquotient.le_of_le isValue_zero (by linarith)

/-- What does not lie below zero is not snapped below zero. -/
theorem snap_nonneg {x : Float32} (h : ¬ x < 0) : 0 ≤ snap x := by
  refine le_iff.mpr ⟨rfl, (rounds_snap x).1, ?_⟩
  rw [value_zero]
  exact value_snap_nonneg ((FixedPoint.milliPoint_sign x).2.mpr (FixedPoint.toInt_milliOf_nonneg h))

/-- A number stays positive under snapping if it is at least half a thousandth, and finite. -/
theorem pos_snap_iff (x : Float32) : 0 < snap x ↔ x.isFinite = true ∧ 1 / 2000 ≤ value x := by
  obtain ⟨hnan, v, hmilli, hquotient⟩ := rounds_snap x
  rw [← FixedPoint.toInt_milliOf_pos, ← (FixedPoint.milliPoint_sign x).1, lt_iff, value_zero]
  constructor
  · rintro ⟨-, -, hpos⟩
    by_contra hnot
    exact absurd hpos (not_lt.mpr (value_snap_nonpos (Int.not_lt.mp hnot)))
  · intro hpos
    have hone : (1 : ℚ) ≤ FixedPoint.milliPoint x := by exact_mod_cast hpos
    have hv : 1 ≤ v := hmilli.ge_of_ge isValue_one hone
    have hsmall : 1 / 1024 ≤ value (snap x) := hquotient.ge_of_ge isValue_small (by linarith)
    exact ⟨rfl, hnan, by linarith⟩

end SvgDisplayList
