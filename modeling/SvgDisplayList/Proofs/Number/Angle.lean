import SvgDisplayList.Number.Trigonometry
import SvgDisplayList.Proofs.Number.Bounds

/-!
# The range of the angle of a vector

The arc tangent is expanded around four base angles.  On every piece the tangent of the difference
to the base angle is so small that the polynomial takes only a fraction of it away
(`atanSeries_between`), so the piece stays near its base angle and all pieces stay below half a turn
(`atan_between`).  The angle of a vector is the arc tangent in one half plane and what it lacks to
half a turn in the other, so it is never more than half a turn (`abs_atan2_le`).
-/

namespace SvgDisplayList

namespace Angle

open Binary32

/-! ## The polynomial -/

/-- Of a number up to one half the polynomial takes away little. -/
lemma atanSeries_between {x : Float32} (hx : Between (-32) 32 x) :
    Between (-7) 7 (atanSeries x) := by
  have ha0 : Between (-22) 22 (Float32.ofBits 0x3eaaaaa9) := by decide +kernel
  have ha1 : Between (-13) 13 (Float32.ofBits 0xbe4cca98) := by decide +kernel
  have ha2 : Between (-10) 10 (Float32.ofBits 0x3e11f50d) := by decide +kernel
  have ha3 : Between (-7) 7 (Float32.ofBits 0xbdda1247) := by decide +kernel
  have ha4 : Between (-4) 4 (Float32.ofBits 0x3d7cac25) := by decide +kernel
  have hz : Between (-16) 16 (x * x) := hx.mul_symm hx (by decide) (by decide)
  have hw : Between (-4) 4 (x * x * (x * x)) := hz.mul_symm hz (by decide) (by decide)
  -- the coefficients of even and of odd index are evaluated apart
  have heven₄ : Between (-1) 1 _ := hw.mul_symm ha4 (by decide) (by decide)
  have heven₂ : Between (-11) 11 _ := ha2.add heven₄ (by decide) (by decide)
  have heven₂' : Between (-1) 1 _ := hw.mul_symm heven₂ (by decide) (by decide)
  have heven₀ : Between (-23) 23 _ := ha0.add heven₂' (by decide) (by decide)
  have heven : Between (-6) 6 _ := hz.mul_symm heven₀ (by decide) (by decide)
  have hodd₃ : Between (-1) 1 _ := hw.mul_symm ha3 (by decide) (by decide)
  have hodd₁ : Between (-14) 14 _ := ha1.add hodd₃ (by decide) (by decide)
  have hodd : Between (-1) 1 _ := hw.mul_symm hodd₁ (by decide) (by decide)
  exact heven.add hodd (by decide) (by decide)

/-! ## The arc tangent -/

/-- A base angle that is larger than what is added to it or taken from it, where the tangent of the
difference is up to `c` sixty-fourths. -/
structure Expandable (c : ℤ) (base : BaseAngle) (t : Float32) : Prop where
  bounds : 0 ≤ c ∧ c ≤ 27
  tangent : Between (-c) c t
  high : Between (c + 4) 101 base.high
  low : Between 0 1 base.low

/-- From seven sixteenths on, the arc tangent chooses an expandable base angle: in each of its four
ranges the base angle stays above the tangent of the difference. -/
lemma atanBase_expandable {x : Float32} (hx : x.isFinite = true)
    (hlower : ((28 : ℤ) : ℚ) / 64 ≤ |value x|) :
    ∃ c, Expandable c (atanBase x.abs.toBits.toNat x.abs).1
      (atanBase x.abs.toBits.toNat x.abs).2 := by
  have hnan := not_isNaN_of_isFinite hx
  have hone : Between 64 64 (1 : Float32) := by decide +kernel
  have htwo : Between 128 128 (2 : Float32) := by decide +kernel
  have hmiddle : Between 96 96 (1.5 : Float32) := by decide +kernel
  have hminus : Between (-64) 64 (-1 : Float32) := by decide +kernel
  have hfinite : x.abs.isFinite = true := isFinite_abs hx
  rw [← value_abs] at hlower
  have hfirst := bits_lt_iff (b := 0x3f300000) (q := ((44 : ℤ) : ℚ) / 64) hnan (11 * 2 ^ 20) (-24)
    ⟨by decide, by decide, by decide⟩ (by decide) (by norm_num)
  have hsecond := bits_lt_iff (b := 0x3f980000) (q := ((76 : ℤ) : ℚ) / 64) hnan (19 * 2 ^ 19) (-23)
    ⟨by decide, by decide, by decide⟩ (by decide) (by norm_num)
  have hthird := bits_lt_iff (b := 0x401c0000) (q := ((156 : ℤ) : ℚ) / 64) hnan (39 * 2 ^ 18) (-22)
    ⟨by decide, by decide, by decide⟩ (by decide) (by norm_num)
  rw [← value_abs] at hfirst hsecond hthird
  unfold atanBase
  split_ifs with h₁ h₂ h₃
  · have hmagnitude : Between 28 44 x.abs :=
      ⟨hfinite, hlower, (hfirst.mp h₁).le⟩
    have hdouble : Between 56 88 (2 * x.abs) :=
      htwo.mul hmagnitude (by decide) (by decide) (by decide)
    have hnum : Between (-24) 24 (2 * x.abs - 1) := hdouble.sub hone (by decide) (by decide)
    have hden : Between 156 172 (2 + x.abs) := htwo.add hmagnitude (by decide) (by decide)
    have hhigh : Between 14 101 (Float32.ofBits 0x3eed6338) := by decide +kernel
    have hlow : Between 0 1 (Float32.ofBits 0x31ac3769) := by decide +kernel
    exact ⟨10, by decide,
      hnum.div_symm hden.finite (by decide) hden.lower (by decide) (by decide),
      hhigh, hlow⟩
  · have hmagnitude : Between 44 76 x.abs :=
      ⟨hfinite, not_lt.mp (mt hfirst.mpr h₁), (hsecond.mp h₂).le⟩
    have hnum : Between (-20) 20 (x.abs - 1) := hmagnitude.sub hone (by decide) (by decide)
    have hden : Between 108 140 (x.abs + 1) := hmagnitude.add hone (by decide) (by decide)
    have hhigh : Between 16 101 (Float32.ofBits 0x3f490fda) := by decide +kernel
    have hlow : Between 0 1 (Float32.ofBits 0x33222168) := by decide +kernel
    exact ⟨12, by decide,
      hnum.div_symm hden.finite (by decide) hden.lower (by decide) (by decide),
      hhigh, hlow⟩
  · have hmagnitude : Between 76 156 x.abs :=
      ⟨hfinite, not_lt.mp (mt hsecond.mpr h₂), (hthird.mp h₃).le⟩
    have hnum : Between (-60) 60 (x.abs - 1.5) := hmagnitude.sub hmiddle (by decide) (by decide)
    have hscaled : Between 114 234 (1.5 * x.abs) :=
      hmiddle.mul hmagnitude (by decide) (by decide) (by decide)
    have hden : Between 178 298 (1 + 1.5 * x.abs) := hone.add hscaled (by decide) (by decide)
    have hhigh : Between 26 101 (Float32.ofBits 0x3f7b985e) := by decide +kernel
    have hlow : Between 0 1 (Float32.ofBits 0x33140fb4) := by decide +kernel
    exact ⟨22, by decide,
      hnum.div_symm hden.finite (by decide) hden.lower (by decide) (by decide),
      hhigh, hlow⟩
  · have hden : ((156 : ℤ) : ℚ) / 64 ≤ value x.abs := by
      exact_mod_cast not_lt.mp (mt hthird.mpr h₃)
    have hhigh : Between 31 101 (Float32.ofBits 0x3fc90fda) := by decide +kernel
    have hlow : Between 0 1 (Float32.ofBits 0x33a22168) := by decide +kernel
    exact ⟨27, by decide,
      hminus.div_symm hfinite (by decide) hden (by decide) (by decide),
      hhigh, hlow⟩

/-- The expansion around a base angle stays near it. -/
lemma Expandable.between {c : ℤ} {base : BaseAngle} {t : Float32} (h : Expandable c base t) :
    Between 0 192 (base.high - ((t * atanSeries t - base.low) - t)) := by
  have hc := h.bounds
  have hseries := atanSeries_between (h.tangent.mono (by omega))
  have hproduct : Between (-3) 3 (t * atanSeries t) :=
    h.tangent.mul_symm hseries (by omega) (by decide)
  have hcorrected : Between (-4) 3 (t * atanSeries t - base.low) :=
    hproduct.sub h.low (by decide) (by decide)
  have hrest : Between (-(c + 4)) (c + 3) (t * atanSeries t - base.low - t) :=
    hcorrected.sub h.tangent (by omega) (by omega)
  exact h.high.sub hrest (by omega) (by omega)

/-- Of a number below seven sixteenths the series takes away no more than the number. -/
lemma series_between {x : Float32} (hx : Between (-28) 28 x) :
    Between (-32) 32 (x - x * atanSeries x) ∧
      (0 ≤ value x → 0 ≤ value (x - x * atanSeries x)) := by
  have hseries := atanSeries_between (hx.mono (by decide))
  have hproduct : Between (-4) 4 (x * atanSeries x) := hx.mul_symm hseries (by decide) (by decide)
  refine ⟨hx.sub hproduct (by decide) (by decide), fun hnonneg => ?_⟩
  have hle : value x * value (atanSeries x) ≤ value x := by
    have hone : value (atanSeries x) ≤ 1 := by
      have hupper := hseries.upper
      norm_num at hupper
      linarith
    calc value x * value (atanSeries x) ≤ value x * 1 := mul_le_mul_of_nonneg_left hone hnonneg
      _ = value x := mul_one _
  have hproductLe := (rounds_mul hx.finite hseries.finite).2.le_of_le (isValue_value x) hle
  exact (rounds_sub hx.finite hproduct.finite).2.ge_of_ge isValue_zero (by linarith)

/-- The arc tangent is less than half a turn, and not negative unless the number is. -/
theorem atan_between {x : Float32} (hx : x.isNaN = false) :
    Between (-192) 192 (atan x) ∧
      (signBit x = false → 0 ≤ value x → 0 ≤ value (atan x)) := by
  have hnan : ¬ x.isNaN = true := by rw [hx]; decide
  have hhuge := bits_lt_iff (b := 0x4c800000) (q := 2 ^ 26) hx (2 ^ 23) 3
    ⟨by decide, by decide, by decide⟩ (by decide) (by norm_num)
  have hsmall := bits_lt_iff (b := 0x3ee00000) (q := ((28 : ℤ) : ℚ) / 64) hx (7 * 2 ^ 21) (-25)
    ⟨by decide, by decide, by decide⟩ (by decide) (by norm_num)
  have hlimit : Between 0 192 (Float32.ofBits 0x3fc90fda + Float32.ofBits 0x03800000) := by
    decide +kernel
  have hsigned {z : Float32} (hz : Between 0 192 z) :
      Between (-192) 192 (if signBit x = true then -z else z) ∧
        (signBit x = false → 0 ≤ value x → 0 ≤ value (if signBit x = true then -z else z)) := by
    split_ifs with hnegative
    · exact ⟨hz.neg.mono (by decide), fun hpositive => absurd hnegative (by rw [hpositive]; decide)⟩
    · exact ⟨hz.mono (by decide), fun _ _ => by simpa using hz.lower⟩
  unfold atan
  dsimp only
  rw [if_neg hnan]
  by_cases h₁ : 0x4c800000 ≤ x.abs.toBits.toNat
  · rw [if_pos h₁]
    exact hsigned hlimit
  · have hfinite : x.isFinite = true := by
      refine isFinite_iff.mpr ⟨hx, (hhuge.mp (Nat.not_le.mp h₁)).trans ?_⟩
      norm_num
    rw [if_neg h₁]
    by_cases h₂ : x.abs.toBits.toNat < 0x3ee00000
    · have hmagnitude : Between (-28) 28 x := by
        obtain ⟨hlower, hupper⟩ := abs_lt.mp (hsmall.mp h₂)
        refine ⟨hfinite, ?_, hupper.le⟩
        push_cast at hlower ⊢
        linarith
      obtain ⟨hseries, hnonneg⟩ := series_between hmagnitude
      split_ifs
      · exact ⟨hmagnitude.mono (by decide), fun _ => id⟩
      · exact ⟨hseries.mono (by decide), fun _ => hnonneg⟩
    · rw [if_neg (by omega), if_neg h₂]
      obtain ⟨c, hexpandable⟩ := atanBase_expandable hfinite (not_lt.mp (mt hsmall.mpr h₂))
      exact hsigned hexpandable.between

/-! ## The angle of a vector -/

/-- Half a turn in sixty-fourths. -/
lemma halfTurn_between : Between 201 202 halfTurn := by decide +kernel

/-- The angle in one of the half planes. -/
lemma abs_le_halfTurn {z : Float32} (hz : Between (-192) 192 z) : |value z| ≤ value halfTurn := by
  have hmagnitude := hz.magnitude_le
  have hlower := halfTurn_between.lower
  push_cast at hmagnitude hlower
  linarith

/-- The angle in the other half plane is what the arc tangent lacks to half a turn. -/
lemma abs_supplement_le {z : Float32} (hz : Between 0 192 z) :
    |value (halfTurn - (z - halfTurnTail))| ≤ value halfTurn ∧
      |value ((z - halfTurnTail) - halfTurn)| ≤ value halfTurn := by
  have htail : Between (-1) 0 halfTurnTail := by decide +kernel
  have hcorrected : Between 0 193 (z - halfTurnTail) := hz.sub htail (by decide) (by decide)
  have hlower := hcorrected.lower
  have hupper := hcorrected.upper
  have hhalf := halfTurn_between.lower
  push_cast at hlower hupper hhalf
  constructor
  · refine (rounds_sub halfTurn_between.finite hcorrected.finite).2.abs_le_of_abs_le
      (isValue_value _) (abs_le.mpr ⟨?_, ?_⟩) <;> linarith
  · refine (rounds_sub hcorrected.finite halfTurn_between.finite).2.abs_le_of_abs_le
      (isValue_value _) (abs_le.mpr ⟨?_, ?_⟩) <;> linarith

/-- The angle in each of the four quadrants. -/
lemma abs_quadrant_le {z : Float32} (hz : Between 0 192 z) (xNegative yNegative : Bool) :
    |value (match xNegative, yNegative with
      | false, false => z
      | false, true => -z
      | true, false => halfTurn - (z - halfTurnTail)
      | true, true => (z - halfTurnTail) - halfTurn)| ≤ value halfTurn := by
  have hright := abs_le_halfTurn (hz.mono (by decide))
  obtain ⟨hupper, hlower⟩ := abs_supplement_le hz
  cases xNegative <;> cases yNegative
  · exact hright
  · exact (by rwa [value_neg, abs_neg] : |value (-z)| ≤ value halfTurn)
  · exact hupper
  · exact hlower

/-- The arc tangent of a magnitude. -/
lemma atan_abs_between {w : Float32} (hw : w.isNaN = false) : Between 0 192 (atan w.abs) := by
  obtain ⟨hbounds, hnonneg⟩ := atan_between (x := w.abs) (by rwa [isNaN_abs])
  refine ⟨hbounds.finite, ?_, hbounds.upper⟩
  have hvalue : 0 ≤ value (atan w.abs) :=
    hnonneg (signBit_abs hw) (by rw [value_abs]; exact abs_nonneg _)
  simpa using hvalue

/-- The angle of a vector is at most half a turn, or it is not a number. -/
theorem abs_atan2_le (y x : Float32) :
    (atan2 y x).isNaN = true ∨ |value (atan2 y x)| ≤ value halfTurn := by
  unfold atan2
  dsimp only
  by_cases hnan : (x.isNaN || y.isNaN) = true
  · rw [if_pos hnan]
    exact Or.inl rfl
  · obtain ⟨hx, hy⟩ : x.isNaN = false ∧ y.isNaN = false := by simpa using hnan
    rw [if_neg hnan]
    refine Or.inr ?_
    by_cases hunit : x.toBits.toNat = 0x3f800000
    · rw [if_pos hunit]
      exact abs_le_halfTurn (atan_between hy).1
    rw [if_neg hunit]
    by_cases hyZero : y.abs.toBits.toNat = 0
    · have hzero : |value y| ≤ value halfTurn := by
        rw [(value_eq_zero_iff hy).mp hyZero]
        decide +kernel
      rw [if_pos hyZero]
      split_ifs
      · decide +kernel
      · decide +kernel
      · exact hzero
    rw [if_neg hyZero]
    by_cases hxZero : x.abs.toBits.toNat = 0
    · rw [if_pos hxZero]
      split_ifs <;> decide +kernel
    rw [if_neg hxZero]
    by_cases hxInfinite : x.abs.toBits.toNat = 0x7f800000
    · rw [if_pos hxInfinite]
      split_ifs <;> decide +kernel
    rw [if_neg hxInfinite]
    by_cases hfar : (decide (x.abs.toBits.toNat + 26 * 0x800000 < y.abs.toBits.toNat) ||
        decide (y.abs.toBits.toNat = 0x7f800000)) = true
    · rw [if_pos hfar]
      split_ifs <;> decide +kernel
    · have hyInfinite : y.abs.toBits.toNat ≠ 0x7f800000 := by
        rw [Bool.or_eq_true, decide_eq_true_iff, decide_eq_true_iff, not_or] at hfar
        exact hfar.2
      have hquotient : (y / x).isNaN = false :=
        (rounds_div (isFinite_of_bits hy hyInfinite) (isFinite_of_bits hx hxInfinite)
          (mt (value_eq_zero_iff hx).mpr hxZero)).1
      rw [if_neg hfar]
      refine abs_quadrant_le ?_ _ _
      split_ifs
      · decide +kernel
      · exact atan_abs_between hquotient

end Angle

end SvgDisplayList
