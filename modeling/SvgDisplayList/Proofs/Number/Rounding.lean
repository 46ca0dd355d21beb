import SvgDisplayList.Proofs.Number.Packing

/-!
# Rounding

An operation on numbers rounds its exact result to the value of a number.  Mostly all that is needed
of the rounding is that it is faithful: no value of a number lies strictly between the exact result
and the rounded one (`Rounds`).  So a bound that is the value of a number is not crossed by
rounding, and an exact result that is the value of a number is left alone.  Where the exact result
is told from the rounded one, rounding has to lead to a nearest value (`Nearest`), which is faithful
(`Nearest.rounds`).

A fraction is rounded on a grid, the multiples of the power of two that the last bit of its mantissa
stands for.  The grid is so coarse only where the mantissa is full, and there every smaller value of
a number lies below the leading bit; so on both sides of the fraction no value of a number is nearer
than the next multiple (`OnGrid.rounds`), and none is nearer at all than the nearest multiple
(`NearestOnGrid.nearest`).

The exact result need not be a multiple of any power of two.  A fraction is cut to a natural number
of units that are no larger than the ones to which it will be rounded, and what has been cut off is
told beside it (`StandsFor`); that is enough to round it on the grid (`nearest_cut`).  A magnitude
with an exponent is the fraction of denominator one (`nearest_roundWithAccuracy`), and products
(`nearest_mul`) are such magnitudes.  Quotients of natural numbers are rounded in a way of their own
(`value_ofRatio`, `rounds_ofRatio`).
-/

namespace SvgDisplayList

namespace Binary32

open Float.Model Float.Model.UnpackedFloat

/-! ## Faithful rounding -/

/-- A rational number is the value of a number: a canonical one, or that of an infinity. -/
def IsValue (v : ℚ) : Prop := ∃ m e, Canonical m e ∧ |v| = m * 2 ^ e ∧ |v| ≤ 2 ^ (128 : ℤ)

/-- An exact result and what it may be rounded to: no value of a number lies strictly between. -/
def Rounds (q v : ℚ) : Prop := ∀ w, IsValue w → (q ≤ w → v ≤ w) ∧ (w ≤ q → w ≤ v)

/-- Values change their signs to values. -/
lemma IsValue.neg {v : ℚ} (h : IsValue v) : IsValue (-v) := by
  obtain ⟨m, e, hm, habs, hle⟩ := h
  exact ⟨m, e, hm, by rwa [abs_neg], by rwa [abs_neg]⟩

/-- The magnitude of a value is a value. -/
lemma IsValue.abs {v : ℚ} (h : IsValue v) : IsValue |v| := by
  obtain ⟨m, e, hm, habs, hle⟩ := h
  exact ⟨m, e, hm, by rwa [abs_abs], by rwa [abs_abs]⟩

/-- Values with a sign are values. -/
lemma IsValue.signed {v : ℚ} (h : IsValue v) (s : Sign) : IsValue (signed s v) := by
  cases s
  · exact h.neg
  · exact h

/-- The value of a canonical number up to the infinities. -/
lemma Canonical.isValue {m : Nat} {e : Int} (h : Canonical m e)
    (hle : (m : ℚ) * 2 ^ e ≤ 2 ^ (128 : ℤ)) : IsValue (m * 2 ^ e) := by
  have habs : |(m : ℚ) * 2 ^ e| = m * 2 ^ e := abs_of_nonneg (by positivity)
  exact ⟨m, e, h, habs, habs.trans_le hle⟩

/-- A rational number that a canonical mantissa and exponent make is a value. -/
lemma isValue_of_eq {v : ℚ} (m : Nat) (e : Int) (h : Canonical m e) (heq : (m : ℚ) * 2 ^ e = v)
    (hle : v ≤ 2 ^ (128 : ℤ)) : IsValue v := by
  subst heq
  exact h.isValue hle

/-- A mantissa of at most full length is that of a value, canonical or not. -/
lemma isValue_mul_zpow {n : Nat} {e : Int} (hn : n ≤ 2 ^ 24) (he : -149 ≤ e)
    (hle : (n : ℚ) * 2 ^ e ≤ 2 ^ (128 : ℤ)) : IsValue (n * 2 ^ e) := by
  obtain ⟨k, rfl⟩ : ∃ k : Nat, e = k - 149 := ⟨(e + 149).toNat, by omega⟩
  clear he
  -- a short mantissa is doubled, which lowers the exponent, until it is full
  induction k generalizing n with
  | zero =>
    rcases Nat.lt_or_eq_of_le hn with hlt | rfl
    · exact Canonical.isValue ⟨hlt, by omega, Or.inr (by simp)⟩ hle
    · exact isValue_of_eq (2 ^ 23) (-148) ⟨by decide, by decide, by decide⟩ (by norm_num) hle
  | succ k ih =>
    rcases Nat.lt_or_ge n (2 ^ 23) with hshort | hfull
    · have hdouble : ((2 * n : Nat) : ℚ) * 2 ^ ((k : ℤ) - 149) =
          n * 2 ^ (((k + 1 : Nat) : ℤ) - 149) := by
        rw [show ((k + 1 : Nat) : ℤ) - 149 = ((k : ℤ) - 149) + 1 by omega, zpow_add₀ (by norm_num)]
        push_cast
        ring
      rw [← hdouble] at hle ⊢
      exact ih (by omega) hle
    · rcases Nat.lt_or_eq_of_le hn with hlt | rfl
      · exact Canonical.isValue ⟨hlt, by omega, Or.inl hfull⟩ hle
      · refine isValue_of_eq (2 ^ 23) (((k + 1 : Nat) : ℤ) - 149 + 1)
          ⟨by decide, by omega, Or.inl le_rfl⟩ ?_ hle
        rw [zpow_add₀ (by norm_num)]
        push_cast
        ring

/-- Zero is a value. -/
lemma isValue_zero : IsValue 0 :=
  isValue_of_eq 0 (-149) ⟨by decide, by decide, by decide⟩ (by norm_num) (by norm_num)

/-- The value of the infinities. -/
lemma isValue_infinity : IsValue (2 ^ (128 : ℤ)) :=
  isValue_of_eq (2 ^ 23) 105 ⟨by decide, by decide, by decide⟩ (by norm_num) le_rfl

/-- The value of a number is one. -/
lemma isValue_value (x : Float32) : IsValue (value x) := by
  have hrange := inRange_unpack x
  unfold value
  cases hx : x.toModel.unpack with
  | notANumber => exact isValue_zero
  | zero s => exact isValue_zero
  | infinity s => exact isValue_infinity.signed s
  | finite s m e hm =>
    rw [hx] at hrange
    exact (hrange.1.isValue hrange.pos_and_lt.2.le).signed s

namespace Rounds

variable {q v w : ℚ}

/-- Rounding does not lead above a value that was not exceeded. -/
lemma le_of_le (h : Rounds q v) (hw : IsValue w) (hle : q ≤ w) : v ≤ w := (h w hw).1 hle

/-- Rounding does not lead below a value that was reached. -/
lemma ge_of_ge (h : Rounds q v) (hw : IsValue w) (hle : w ≤ q) : w ≤ v := (h w hw).2 hle

/-- Rounding does not lead out of bounds that are values. -/
lemma abs_le_of_abs_le (h : Rounds q v) (hw : IsValue w) (hq : |q| ≤ w) : |v| ≤ w := by
  obtain ⟨hlower, hupper⟩ := abs_le.mp hq
  exact abs_le.mpr ⟨h.ge_of_ge hw.neg hlower, h.le_of_le hw hupper⟩

/-- A value is rounded to itself. -/
lemma eq_of_isValue (h : Rounds q v) (hq : IsValue q) : v = q :=
  le_antisymm (h.le_of_le hq le_rfl) (h.ge_of_ge hq le_rfl)

/-- Every value may be rounded to itself. -/
lemma refl (v : ℚ) : Rounds v v := fun _ _ => ⟨id, id⟩

/-- Rounding is the same on both sides of zero. -/
lemma neg (h : Rounds q v) : Rounds (-q) (-v) := by
  intro w hw
  obtain ⟨habove, hbelow⟩ := h (-w) hw.neg
  exact ⟨fun hle => by linarith [hbelow (by linarith)],
    fun hle => by linarith [habove (by linarith)]⟩

/-- Rounding keeps signs. -/
lemma signed (h : Rounds q v) (s : Sign) : Rounds (signed s q) (signed s v) := by
  cases s
  · exact h.neg
  · exact h

end Rounds

/-! ## Nearest values -/

/-- An exact result and what it is rounded to: no value of a number is nearer. -/
def Nearest (q v : ℚ) : Prop := ∀ w, IsValue w → |v - q| ≤ |w - q|

namespace Nearest

variable {q v : ℚ}

/-- Rounding to a nearest value is faithful. -/
lemma rounds (h : Nearest q v) : Rounds q v := by
  intro w hw
  have hle := h w hw
  refine ⟨fun habove => ?_, fun hbelow => ?_⟩
  · rw [abs_of_nonneg (sub_nonneg.mpr habove)] at hle
    linarith [le_abs_self (v - q)]
  · rw [abs_of_nonpos (sub_nonpos.mpr hbelow)] at hle
    linarith [neg_abs_le (v - q)]

/-- Every value is nearest to itself. -/
lemma refl (v : ℚ) : Nearest v v := by
  intro w _
  rw [sub_self, abs_zero]
  exact abs_nonneg _

/-- Rounding is the same on both sides of zero. -/
lemma neg (h : Nearest q v) : Nearest (-q) (-v) := by
  intro w hw
  have hother : -w - q = -(w - -q) := by ring
  calc |-v - -q| = |v - q| := by rw [neg_sub_neg, abs_sub_comm]
    _ ≤ |-w - q| := h (-w) hw.neg
    _ = |w - -q| := by rw [hother, abs_neg]

/-- Rounding keeps signs. -/
lemma signed (h : Nearest q v) (s : Sign) : Nearest (signed s q) (signed s v) := by
  cases s
  · exact h.neg
  · exact h

end Nearest

/-! ## The grid -/

/-- A natural number is what a fraction may be rounded to on the multiples of `2 ^ t`. -/
structure OnGrid (q : ℚ) (t : ℤ) (r : Nat) : Prop where
  le : -149 ≤ t
  full : (2 : ℚ) ^ (t + 23) ≤ q ∨ t = -149
  lower : ∀ n : Nat, (n : ℚ) * 2 ^ t ≤ q → n ≤ r
  upper : ∀ n : Nat, q ≤ (n : ℚ) * 2 ^ t → r ≤ n

namespace OnGrid

variable {q : ℚ} {t : ℤ} {r : Nat}

/-- A canonical number on the grid is a multiple of its step. -/
lemma exists_multiple {m : Nat} {e : Int} (h : t ≤ e) :
    ∃ n : Nat, (m : ℚ) * 2 ^ e = n * 2 ^ t := by
  refine ⟨m * 2 ^ (e - t).toNat, ?_⟩
  have hsplit : e = ((e - t).toNat : ℤ) + t := by omega
  conv_lhs => rw [hsplit, zpow_add₀ (by norm_num), zpow_natCast]
  push_cast
  ring

/-- No canonical number lies strictly between a fraction and what it may be rounded to. -/
lemma canonical (h : OnGrid q t r) {m : Nat} {e : Int} (hm : Canonical m e) :
    (q ≤ m * 2 ^ e → (r : ℚ) * 2 ^ t ≤ m * 2 ^ e) ∧
      ((m : ℚ) * 2 ^ e ≤ q → (m : ℚ) * 2 ^ e ≤ r * 2 ^ t) := by
  have hpos : (0 : ℚ) < 2 ^ t := by positivity
  by_cases hte : t ≤ e
  · obtain ⟨n, hn⟩ := exists_multiple (m := m) hte
    rw [hn]
    refine ⟨fun hle => ?_, fun hle => ?_⟩
    · exact mul_le_mul_of_nonneg_right (by exact_mod_cast h.upper n hle) hpos.le
    · exact mul_le_mul_of_nonneg_right (by exact_mod_cast h.lower n hle) hpos.le
  · -- below the grid all canonical numbers lie below the leading bit of the fraction
    have hle := hm.le
    have hfull : (2 : ℚ) ^ (t + 23) ≤ q := h.full.resolve_right (by omega)
    have hbelow : (m : ℚ) * 2 ^ e < 2 ^ (t + 23) :=
      hm.lt_two_zpow.trans_le (zpow_le_zpow_right₀ (by norm_num) (by omega))
    have hleading : ((2 ^ 23 : Nat) : ℚ) * 2 ^ t = 2 ^ (t + 23) := by
      rw [zpow_add₀ (by norm_num) t 23, mul_comm]
      norm_num
    have hreached : ((2 ^ 23 : Nat) : ℚ) ≤ r := by
      exact_mod_cast h.lower (2 ^ 23) (by rwa [hleading])
    refine ⟨fun habove => absurd (hfull.trans habove) (not_le.mpr hbelow), fun _ => ?_⟩
    calc (m : ℚ) * 2 ^ e ≤ 2 ^ (t + 23) := hbelow.le
      _ = ((2 ^ 23 : Nat) : ℚ) * 2 ^ t := hleading.symm
      _ ≤ r * 2 ^ t := mul_le_mul_of_nonneg_right hreached hpos.le

/-- On the grid the rounding is faithful, the infinities being the last values. -/
theorem rounds (h : OnGrid q t r) (hq : 0 ≤ q) :
    Rounds q (Min.min ((r : ℚ) * 2 ^ t) (2 ^ (128 : ℤ))) := by
  rintro w ⟨m, e, hm, habs, hle⟩
  obtain ⟨habove, hbelow⟩ := h.canonical hm
  have hnonneg : (0 : ℚ) ≤ Min.min ((r : ℚ) * 2 ^ t) (2 ^ (128 : ℤ)) :=
    le_min (by positivity) (by positivity)
  rcases le_or_gt 0 w with hw | hw
  · rw [abs_of_nonneg hw] at habs hle
    rw [← habs] at habove hbelow
    exact ⟨fun hqw => (min_le_left _ _).trans (habove hqw),
      fun hwq => le_min (hbelow hwq) hle⟩
  · exact ⟨fun hqw => absurd (hq.trans hqw) (not_le.mpr hw), fun _ => hw.le.trans hnonneg⟩

/-- What a fraction is rounded to has the leading bit that its mantissa has. -/
lemma two_pow_le (h : OnGrid q t r) : 2 ^ 23 ≤ r ∨ t = -149 := by
  refine h.full.imp_left fun hfull => h.lower (2 ^ 23) ?_
  rw [zpow_add₀ (by norm_num) t 23, mul_comm] at hfull
  exact_mod_cast hfull

/-- A fraction below the power of two that a mantissa cannot reach is rounded to at most it. -/
lemma le_two_pow (h : OnGrid q t r) (hlt : q < 2 ^ (t + 24)) : r ≤ 2 ^ 24 := by
  refine h.upper (2 ^ 24) ?_
  rw [zpow_add₀ (by norm_num) t 24, mul_comm] at hlt
  exact_mod_cast hlt.le

end OnGrid

/-- A natural number is what a fraction is rounded to on the multiples of `2 ^ t`, at most half a
step away. -/
structure NearestOnGrid (q : ℚ) (t : ℤ) (r : Nat) : Prop extends OnGrid q t r where
  near : |(r : ℚ) * 2 ^ t - q| ≤ 2 ^ t / 2

namespace NearestOnGrid

variable {q : ℚ} {t : ℤ} {r : Nat}

/-- No multiple is nearer. -/
lemma abs_sub_le_multiple (h : NearestOnGrid q t r) (n : Nat) :
    |(r : ℚ) * 2 ^ t - q| ≤ |(n : ℚ) * 2 ^ t - q| := by
  rcases eq_or_ne n r with rfl | hne
  · exact le_rfl
  · have hstep : (2 : ℚ) ^ t ≤ |(n : ℚ) * 2 ^ t - r * 2 ^ t| := by
      have hone : (1 : ℚ) ≤ |(n : ℚ) - r| := by
        have hint : (1 : ℤ) ≤ |(n : ℤ) - r| := Int.one_le_abs (by omega)
        exact_mod_cast hint
      rw [← sub_mul, abs_mul, abs_of_pos (by positivity : (0 : ℚ) < 2 ^ t)]
      exact le_mul_of_one_le_left (by positivity) hone
    have htriangle := abs_sub_le ((n : ℚ) * 2 ^ t) q (r * 2 ^ t)
    rw [abs_sub_comm q] at htriangle
    linarith [h.near]

/-- No value of a number is nearer than the nearest multiple. -/
lemma abs_sub_le_value (h : NearestOnGrid q t r) (hq : 0 ≤ q) {w : ℚ} (hw : IsValue w) :
    |(r : ℚ) * 2 ^ t - q| ≤ |w - q| := by
  obtain ⟨m, e, hm, habs, -⟩ := hw
  rcases le_or_gt 0 w with hnonneg | hneg
  · rw [abs_of_nonneg hnonneg] at habs
    by_cases hte : t ≤ e
    · obtain ⟨n, hn⟩ := OnGrid.exists_multiple (m := m) hte
      rw [habs, hn]
      exact h.abs_sub_le_multiple n
    · -- below the grid all canonical numbers lie below the leading bit of the fraction
      have hle := hm.le
      have hfull : (2 : ℚ) ^ (t + 23) ≤ q := h.full.resolve_right (by omega)
      have hbelow : w < 2 ^ (t + 23) := by
        rw [habs]
        exact hm.lt_two_zpow.trans_le (zpow_le_zpow_right₀ (by norm_num) (by omega))
      have hleading : ((2 ^ 23 : Nat) : ℚ) * 2 ^ t = 2 ^ (t + 23) := by
        rw [zpow_add₀ (by norm_num) t 23, mul_comm]
        norm_num
      have hmultiple := h.abs_sub_le_multiple (2 ^ 23)
      rw [hleading, abs_of_nonpos (sub_nonpos.mpr hfull)] at hmultiple
      rw [abs_of_nonpos (by linarith : w - q ≤ 0)]
      linarith
  · have hzero := h.abs_sub_le_multiple 0
    rw [Nat.cast_zero, MulZeroClass.zero_mul, zero_sub, abs_neg, abs_of_nonneg hq] at hzero
    rw [abs_of_nonpos (by linarith : w - q ≤ 0)]
    linarith

/-- On the grid rounding leads to a nearest value, the infinities being the last ones. -/
theorem nearest (h : NearestOnGrid q t r) (hq : 0 ≤ q) :
    Nearest q (Min.min ((r : ℚ) * 2 ^ t) (2 ^ (128 : ℤ))) := by
  intro w hw
  rcases le_or_gt ((r : ℚ) * 2 ^ t) (2 ^ (128 : ℤ)) with hle | hgt
  · rw [min_eq_left hle]
    exact h.abs_sub_le_value hq hw
  · -- a fraction that is rounded to beyond the infinities is beyond them
    have hinfinity : ((2 ^ 23 : Nat) : ℚ) * 2 ^ (105 : ℤ) = 2 ^ (128 : ℤ) := by norm_num
    have hbeyond : (2 : ℚ) ^ (128 : ℤ) < q := by
      by_contra hle
      have hcanonical := h.canonical (m := 2 ^ 23) (e := 105)
        ⟨by decide, by decide, Or.inl (by decide)⟩
      rw [hinfinity] at hcanonical
      exact absurd (hcanonical.1 (not_lt.mp hle)) (not_le.mpr hgt)
    obtain ⟨-, -, -, -, hlast⟩ := hw
    have hw' := (le_abs_self w).trans hlast
    rw [min_eq_right hgt.le, abs_of_nonpos (by linarith), abs_of_nonpos (by linarith)]
    linarith

/-- A fraction of which no multiple is left is rounded to zero. -/
lemma nearest_zero (h : NearestOnGrid q t 0) (hq : 0 ≤ q) : Nearest q 0 := by
  have hnearest := h.nearest hq
  have hnone : Min.min (((0 : Nat) : ℚ) * 2 ^ t) (2 ^ (128 : ℤ)) = 0 := by
    rw [Nat.cast_zero, MulZeroClass.zero_mul]
    exact min_eq_left (by positivity)
  rwa [hnone] at hnearest

end NearestOnGrid

/-! ## Results that are packed -/

/-- A zero that has been packed is zero rounded. -/
lemma nearest_pack_zero (s : Sign) :
    (Float32.ofModel (.pack (.zero s))).isNaN = false ∧
      Nearest 0 (value (.ofModel (.pack (.zero s)))) := by
  obtain ⟨hnan, hvalue⟩ := value_pack_zero s
  exact ⟨hnan, hvalue ▸ Nearest.refl 0⟩

/-- A rounded mantissa that is too long by one bit is the same number with the next exponent. -/
lemma exists_canonical {r : Nat} {t : ℤ} (hle : -149 ≤ t) (hfull : 2 ^ 23 ≤ r ∨ t = -149)
    (hr : r ≤ 2 ^ 24) :
    ∃ m e, Canonical m e ∧ (0 < r → 0 < m) ∧ pattern m e = pattern r t ∧
      ∃ k : Nat, r = m * 2 ^ k ∧ t = e - k := by
  rcases Nat.lt_or_eq_of_le hr with hlt | rfl
  · exact ⟨r, t, ⟨hlt, hle, hfull⟩, id, rfl, 0, by simp, by simp⟩
  · refine ⟨2 ^ 23, t + 1, ⟨by decide, by omega, Or.inl le_rfl⟩, fun _ => by decide, ?_, 1, by simp,
      by simp⟩
    unfold pattern
    rw [if_neg (by decide), if_neg (by decide)]
    omega

/-- A power of two can be moved from the mantissa to the exponent. -/
lemma mul_two_pow_mul_zpow (m k : Nat) (e : ℤ) :
    ((m * 2 ^ k : Nat) : ℚ) * 2 ^ (e - k) = m * 2 ^ e := by
  have hne : (2 : ℚ) ^ k ≠ 0 := by positivity
  rw [zpow_sub₀ (by norm_num), zpow_natCast]
  push_cast
  field_simp

/-! ## Fractions that are cut -/

/-- Shifting divides the mantissa. -/
lemma mantissa_shiftRight (em : ExtendedMantissa) (k : Nat) :
    (em >>> k).mantissa = em.mantissa / 2 ^ k := by
  change (k.repeat ExtendedMantissa.shiftRightOne em).mantissa = _
  induction k with
  | zero => rw [Nat.pow_zero, Nat.div_one]; rfl
  | succ k ih =>
    rw [Nat.repeat, Nat.pow_succ, ← Nat.div_div_eq_div_mul, ← ih]
    rfl

/-- A mantissa is rounded to itself or to the next one. -/
lemma roundedMantissa_bounds (em : ExtendedMantissa) :
    em.mantissa ≤ em.roundedMantissa ∧ em.roundedMantissa ≤ em.mantissa + 1 := by
  obtain ⟨m, b, b'⟩ := em
  cases b <;> cases b' <;>
    simp only [ExtendedMantissa.roundedMantissa, ExtendedMantissa.accuracy,
      Accuracy.roundToNearestEven] <;>
    omega

/-- The mantissa of a fraction, and what has been cut off of it. -/
def cut (m d : Nat) : ExtendedMantissa :=
  .ofMantissaAndAccuracy (m / d) (accuracyOfFraction (m % d) d)

/-- The mantissa of a fraction is the quotient. -/
lemma mantissa_cut (m d : Nat) : (cut m d).mantissa = m / d := by
  unfold cut ExtendedMantissa.ofMantissaAndAccuracy
  split <;> rfl

/-- Nothing is cut off of a multiple. -/
lemma cut_mul (n : Nat) {d : Nat} (hd : 0 < d) : cut (n * d) d = ⟨n, false, false⟩ := by
  unfold cut
  rw [Nat.mul_div_cancel _ hd, Nat.mul_mod_left]
  rfl

/-- A fraction that is cut, shifted and rounded is not taken past a multiple of what is shifted
out. -/
lemma roundedMantissa_cut (m : Nat) {d : Nat} (hd : 0 < d) (k n : Nat) :
    (n * 2 ^ k * d ≤ m → n ≤ (cut m d >>> k).roundedMantissa) ∧
      (m ≤ n * 2 ^ k * d → (cut m d >>> k).roundedMantissa ≤ n) := by
  obtain ⟨hlower, hupper⟩ := roundedMantissa_bounds (cut m d >>> k)
  rw [mantissa_shiftRight, mantissa_cut] at hlower hupper
  have hpos : 0 < 2 ^ k := Nat.two_pow_pos k
  refine ⟨fun h => ?_, fun h => ?_⟩
  · refine ((Nat.le_div_iff_mul_le hpos).mpr ?_).trans hlower
    exact (Nat.le_div_iff_mul_le hd).mpr h
  · rcases Nat.eq_or_lt_of_le h with rfl | hlt
    · rw [cut_mul _ hd, shiftRight_mul_two_pow]
      exact le_rfl
    · refine hupper.trans ((Nat.div_lt_iff_lt_mul hpos).mpr ?_)
      exact (Nat.div_lt_iff_lt_mul hd).mpr hlt

/-- A mantissa with its residual bits stands for a fraction: the first bit says whether half a unit
is cut off or more, the second one whether something besides a half is. -/
structure StandsFor (em : ExtendedMantissa) (num den : Nat) : Prop where
  mantissa : em.mantissa = num / den
  roundBit : em.roundBit = true ↔ den ≤ 2 * (num % den)
  stickyBit : em.stickyBit = true ↔ num % den ≠ 0 ∧ 2 * (num % den) ≠ den

namespace StandsFor

variable {em : ExtendedMantissa} {num den : Nat}

/-- The mantissa of a fraction stands for it. -/
lemma cut (num : Nat) (hden : 0 < den) : StandsFor (Binary32.cut num den) num den := by
  have hfalse {p : Prop} (hp : ¬ p) : false = true ↔ p := iff_of_false Bool.false_ne_true hp
  have htrue {p : Prop} (hp : p) : true = true ↔ p := iff_of_true rfl hp
  unfold Binary32.cut accuracyOfFraction
  by_cases hzero : num % den = 0
  · rw [if_pos hzero]
    exact ⟨rfl, hfalse (by omega), hfalse (by omega)⟩
  · rw [if_neg hzero]
    rcases lt_trichotomy (2 * (num % den)) den with hcompare | hcompare | hcompare
    · rw [compare_lt_iff_lt.mpr hcompare]
      exact ⟨rfl, hfalse (by omega), htrue (by omega)⟩
    · rw [compare_eq_iff_eq.mpr hcompare]
      exact ⟨rfl, htrue (by omega), hfalse (by omega)⟩
    · rw [compare_gt_iff_gt.mpr hcompare]
      exact ⟨rfl, htrue (by omega), htrue (by omega)⟩

/-- A mantissa that is shifted stands for half of the fraction. -/
lemma shiftRightOne (h : StandsFor em num den) (hden : 0 < den) :
    StandsFor em.shiftRightOne num (den * 2) := by
  have hlt := Nat.mod_lt num hden
  have hmod : num % (den * 2) = num % den + den * (num / den % 2) := Nat.mod_mul
  have hround := h.roundBit
  have hsticky := h.stickyBit
  have hparity : den * (num / den % 2) = if num / den % 2 = 0 then 0 else den := by
    rcases Nat.mod_two_eq_zero_or_one (num / den) with hmod | hmod <;> rw [hmod] <;> simp
  refine ⟨?_, ?_, ?_⟩
  · rw [← Nat.div_div_eq_div_mul, ← h.mantissa]
    rfl
  · change (em.mantissa % 2 != 0) = true ↔ _
    rw [h.mantissa, bne_iff_ne, hmod, hparity]
    split_ifs <;> omega
  · change (em.roundBit || em.stickyBit) = true ↔ _
    rw [Bool.or_eq_true, hround, hsticky, hmod, hparity]
    split_ifs <;> omega

/-- A mantissa that is shifted stands for the fraction divided by a power of two. -/
lemma shiftRight (h : StandsFor em num den) (hden : 0 < den) (k : Nat) :
    StandsFor (em >>> k) num (den * 2 ^ k) := by
  change StandsFor (k.repeat ExtendedMantissa.shiftRightOne em) _ _
  induction k with
  | zero => rwa [Nat.pow_zero, Nat.mul_one]
  | succ k ih =>
    rw [Nat.pow_succ, ← Nat.mul_assoc]
    exact ih.shiftRightOne (Nat.mul_pos hden (Nat.two_pow_pos k))

/-- A mantissa is rounded by at most half a unit. -/
lemma near (h : StandsFor em num den) (hden : 0 < den) :
    2 * (em.roundedMantissa * den) ≤ 2 * num + den ∧
      2 * num ≤ 2 * (em.roundedMantissa * den) + den := by
  have hlt := Nat.mod_lt num hden
  have hdiv := Nat.div_add_mod' num den
  rw [← h.mantissa] at hdiv
  have hround := h.roundBit
  have hsticky := h.stickyBit
  have hnext : (em.mantissa + 1) * den = em.mantissa * den + den := Nat.succ_mul ..
  have hcases : em.roundedMantissa = em.mantissa ∧ 2 * (num % den) ≤ den ∨
      em.roundedMantissa = em.mantissa + 1 ∧ den ≤ 2 * (num % den) := by
    clear hdiv hnext
    obtain ⟨m, b, b'⟩ := em
    cases b <;> cases b' <;>
      simp only [ExtendedMantissa.roundedMantissa, ExtendedMantissa.accuracy,
        Accuracy.roundToNearestEven, Bool.false_eq_true, false_iff, true_iff, true_and]
        at hround hsticky ⊢ <;>
      omega
  rcases hcases with ⟨heq, hle⟩ | ⟨heq, hle⟩
  · rw [heq]
    omega
  · rw [heq, hnext]
    omega
end StandsFor

section Round

variable {m d k : Nat} {e : Int}

/-- The magnitude that is shifted to the exponent of its size. -/
lemma shiftToTargetExponent_cut
    (hk : Format.binary32.targetExponent (totalExponent (m / d) e) = e + k) :
    shiftToTargetExponent Format.binary32 (m / d) e (accuracyOfFraction (m % d) d) =
      (cut m d >>> k, e + (k : ℤ)) := by
  have hshift : (e + (k : ℤ) - e).toNat = k := by omega
  unfold shiftToTargetExponent shiftToExponent
  simp only [hk, hshift, cut]

/-- A quotient lies below the power of two beyond its leading bit. -/
lemma div_mul_zpow_lt (hd : 0 < d) :
    (m / d * 2 ^ e : ℚ) < 2 ^ (((m / d).log2 + 1 : Nat) + e) := by
  have hd' : (0 : ℚ) < d := by exact_mod_cast hd
  have hlog : m < 2 ^ ((m / d).log2 + 1) * d := (Nat.div_lt_iff_lt_mul hd).mp Nat.lt_log2_self
  rw [zpow_add₀ (by norm_num), zpow_natCast]
  refine mul_lt_mul_of_pos_right ((div_lt_iff₀ hd').mpr ?_) (by positivity)
  exact_mod_cast hlog

/-- A quotient that is not below one reaches its leading bit. -/
lemma le_div_mul_zpow (hd : 0 < d) (hne : m / d ≠ 0) :
    (2 : ℚ) ^ (((m / d).log2 : Nat) + e) ≤ m / d * 2 ^ e := by
  have hd' : (0 : ℚ) < d := by exact_mod_cast hd
  have hlog : 2 ^ (m / d).log2 * d ≤ m := (Nat.le_div_iff_mul_le hd).mp (Nat.log2_self_le hne)
  rw [zpow_add₀ (by norm_num), zpow_natCast]
  refine mul_le_mul_of_nonneg_right ((le_div_iff₀ hd').mpr ?_) (by positivity)
  exact_mod_cast hlog

/-- The mantissa of a quotient that has been cut and shifted is rounded by at most half a unit. -/
lemma near_cut (hd : 0 < d) (k : Nat) (e : Int) :
    |((cut m d >>> k).roundedMantissa : ℚ) * 2 ^ (e + (k : ℤ)) - m / d * 2 ^ e| ≤
      2 ^ (e + (k : ℤ)) / 2 := by
  obtain ⟨habove, hbelow⟩ := ((StandsFor.cut m hd).shiftRight hd k).near
    (Nat.mul_pos hd (Nat.two_pow_pos k))
  generalize (cut m d >>> k).roundedMantissa = r at habove hbelow ⊢
  have hd' : (0 : ℚ) < d := by exact_mod_cast hd
  have hscale (a : ℚ) : a / d * 2 ^ e = a * (2 ^ e / d) := by ring
  have hunit : (2 : ℚ) ^ (e + (k : ℤ)) = (d * 2 ^ k) * (2 ^ e / d) := by
    rw [zpow_add₀ (by norm_num), zpow_natCast]
    field_simp
  have hunits : (0 : ℚ) ≤ 2 ^ e / d := by positivity
  have habove' : (2 * (r * (d * 2 ^ k)) : ℚ) ≤ 2 * m + d * 2 ^ k := by exact_mod_cast habove
  have hbelow' : (2 * m : ℚ) ≤ 2 * (r * (d * 2 ^ k)) + d * 2 ^ k := by exact_mod_cast hbelow
  have hscaledAbove := mul_le_mul_of_nonneg_right habove' hunits
  have hscaledBelow := mul_le_mul_of_nonneg_right hbelow' hunits
  rw [hscale, hunit]
  exact abs_le.mpr ⟨by linarith, by linarith⟩

/-- A fraction of units that are no larger than those to which it is rounded is rounded on the
grid. -/
lemma onGrid_cut (hd : 0 < d) (hlong : 2 ^ 23 * d ≤ m ∨ e ≤ -149)
    (hk : Format.binary32.targetExponent (totalExponent (m / d) e) = e + k) :
    NearestOnGrid (m / d * 2 ^ e) (e + k) (cut m d >>> k).roundedMantissa ∧
      (m / d * 2 ^ e : ℚ) < 2 ^ (e + k + 24) := by
  obtain ⟨-, hbits, hmin⟩ := format_eq
  have htarget : Max.max (((m / d).log2 : Int) + 1 + e - (24 : Nat)) (-149) = e + k := by
    rw [← hk, Format.targetExponent, totalExponent, hbits, hmin]
  have hd' : (0 : ℚ) < d := by exact_mod_cast hd
  have hpos : (0 : ℚ) < 2 ^ e := by positivity
  have hmultiple (n : Nat) :
      (n : ℚ) * 2 ^ (e + (k : ℤ)) = ((n * 2 ^ k * d : Nat) : ℚ) / d * 2 ^ e := by
    rw [zpow_add₀ (by norm_num), zpow_natCast]
    push_cast
    field_simp
  have hlower (n : Nat) : (n : ℚ) * 2 ^ (e + (k : ℤ)) ≤ m / d * 2 ^ e ↔ n * 2 ^ k * d ≤ m := by
    rw [hmultiple, mul_le_mul_iff_left₀ hpos, div_le_div_iff_of_pos_right hd', Nat.cast_le]
  have hupper (n : Nat) : (m / d * 2 ^ e : ℚ) ≤ n * 2 ^ (e + (k : ℤ)) ↔ m ≤ n * 2 ^ k * d := by
    rw [hmultiple, mul_le_mul_iff_left₀ hpos, div_le_div_iff_of_pos_right hd', Nat.cast_le]
  refine ⟨⟨⟨by omega, ?_, fun n h => (roundedMantissa_cut m hd k n).1 ((hlower n).mp h),
    fun n h => (roundedMantissa_cut m hd k n).2 ((hupper n).mp h)⟩, near_cut hd k e⟩, ?_⟩
  · by_cases hsmall : e + (k : ℤ) = -149
    · exact Or.inr hsmall
    · -- the quotient reaches the leading bit of a mantissa, so it has one of its own
      have hne : m / d ≠ 0 := by
        intro hnone
        rw [hnone, Nat.log2_zero] at htarget
        rcases hlong with hlong | hlow
        · have := (Nat.le_div_iff_mul_le hd).mpr hlong
          omega
        · omega
      refine Or.inl ?_
      rw [show e + (k : ℤ) + 23 = ((m / d).log2 : Nat) + e by omega]
      exact le_div_mul_zpow hd hne
  · exact (div_mul_zpow_lt hd).trans_le (zpow_le_zpow_right₀ (by norm_num) (by omega))

/-- A magnitude whose mantissa is rounded on the grid makes a number whose value is nearest. -/
theorem nearest_of_onGrid {q : ℚ} {t : Int} {a : Accuracy} {em : ExtendedMantissa}
    (hfirst : shiftToTargetExponent Format.binary32 m e a = (em, t))
    (hgrid : NearestOnGrid q t em.roundedMantissa) (hnonneg : 0 ≤ q) (hlt : q < 2 ^ (t + 24))
    (s : Sign) :
    (Float32.ofModel (.pack (roundWithAccuracy Format.binary32 s m e a))).isNaN = false ∧
      Nearest (signed s q)
        (value (.ofModel (.pack (roundWithAccuracy Format.binary32 s m e a)))) := by
  have hnearest := (hgrid.nearest hnonneg).signed s
  obtain ⟨m', e', hcanonical, hpos, -, k', hm', he'⟩ :=
    exists_canonical hgrid.le hgrid.two_pow_le (hgrid.le_two_pow hlt)
  rcases Nat.eq_zero_or_pos m' with rfl | hm'pos
  · -- nothing is left of the magnitude
    have hnone : em.roundedMantissa = 0 := by rw [hm', Nat.zero_mul]
    have hzero : roundWithAccuracy Format.binary32 s m e a = .zero s := by
      unfold roundWithAccuracy
      simp only [hfirst, hnone]
      rw [dif_pos]
      unfold shiftToTargetExponent shiftToExponent
      rw [mantissa_shiftRight]
      exact Nat.zero_div _
    obtain ⟨hnan, hvalue⟩ := value_pack_zero s
    rw [hnone] at hgrid
    rw [hzero, hvalue, ← signed_zero s]
    exact ⟨hnan, (hgrid.nearest_zero hnonneg).signed s⟩
  · have hsecond := hcanonical.shiftToTargetExponent_eq hm'pos k'
    rw [← hm', ← he'] at hsecond
    have hfinite : roundWithAccuracy Format.binary32 s m e a = .finite s m' e' hm'pos := by
      unfold roundWithAccuracy
      simp only [hfirst, hsecond]
      rw [dif_neg (by omega)]
    obtain ⟨hnan, hvalue⟩ := value_pack_finite hcanonical hm'pos s
    rw [hfinite, hvalue, ← mul_two_pow_mul_zpow m' k' e', ← hm', ← he']
    exact ⟨hnan, hnearest⟩

/-- A fraction that is cut to units that are no larger than those to which it is rounded is rounded
to a nearest value. -/
theorem nearest_cut (hd : 0 < d) (hlong : 2 ^ 23 * d ≤ m ∨ e ≤ -149) (s : Sign) :
    (Float32.ofModel (.pack (roundWithAccuracy Format.binary32 s (m / d) e
        (accuracyOfFraction (m % d) d)))).isNaN = false ∧
      Nearest (signed s (m / d * 2 ^ e))
        (value (.ofModel (.pack (roundWithAccuracy Format.binary32 s (m / d) e
          (accuracyOfFraction (m % d) d))))) := by
  have hle : e ≤ Format.binary32.targetExponent (totalExponent (m / d) e) := by
    obtain ⟨-, hbits, hmin⟩ := format_eq
    rw [Format.targetExponent, totalExponent, hbits, hmin]
    rcases hlong with hlong | hlow
    · have hquotient : 2 ^ 23 ≤ m / d := (Nat.le_div_iff_mul_le hd).mpr hlong
      have hlog : 23 ≤ (m / d).log2 := (Nat.le_log2 (by omega)).mpr hquotient
      omega
    · omega
  obtain ⟨k, hk⟩ : ∃ k : Nat, Format.binary32.targetExponent (totalExponent (m / d) e) = e + k :=
    ⟨(Format.binary32.targetExponent (totalExponent (m / d) e) - e).toNat, by omega⟩
  obtain ⟨hgrid, hlt⟩ := onGrid_cut hd hlong hk
  exact nearest_of_onGrid (shiftToTargetExponent_cut hk) hgrid (by positivity) hlt s

/-- The result of an operation: its value is the exact magnitude rounded on the grid. -/
theorem nearest_roundWithAccuracy (hm : 0 < m)
    (he : e ≤ Format.binary32.targetExponent (totalExponent m e)) (s : Sign) :
    (Float32.ofModel (.pack (roundWithAccuracy Format.binary32 s m e .exact))).isNaN = false ∧
      Nearest (signed s (m * 2 ^ e))
        (value (.ofModel (.pack (roundWithAccuracy Format.binary32 s m e .exact)))) := by
  have hlong : 2 ^ 23 * 1 ≤ m ∨ e ≤ -149 := by
    obtain ⟨-, hbits, hmin⟩ := format_eq
    rw [Format.targetExponent, totalExponent, hbits, hmin] at he
    rcases Nat.lt_or_ge m (2 ^ 23) with hshort | hlong
    · have hlog : m.log2 < 23 := (Nat.log2_lt hm.ne').mpr hshort
      omega
    · exact Or.inl (by omega)
  have hnearest := nearest_cut Nat.one_pos hlong s
  rwa [Nat.div_one, Nat.mod_one, Nat.cast_one, div_one] at hnearest

end Round

/-! ## Products -/

/-- A product of canonical mantissas is long enough to be rounded. -/
lemma Canonical.add_le_targetExponent {m₁ m₂ : Nat} {e₁ e₂ : Int} (h₁ : Canonical m₁ e₁)
    (h₂ : Canonical m₂ e₂) (hpos₁ : 0 < m₁) (hpos₂ : 0 < m₂) :
    e₁ + e₂ ≤ Format.binary32.targetExponent (totalExponent (m₁ * m₂) (e₁ + e₂)) := by
  obtain ⟨-, hbits, hmin⟩ := format_eq
  have hle₁ := h₁.le
  have hle₂ := h₂.le
  have hne : m₁ * m₂ ≠ 0 := (Nat.mul_pos hpos₁ hpos₂).ne'
  unfold Format.targetExponent totalExponent
  rw [hbits, hmin]
  by_cases hsmall : e₁ = -149 ∧ e₂ = -149
  · omega
  · have hlong : 2 ^ 23 ≤ m₁ * m₂ := by
      rcases h₁.full with hfull | hmin₁
      · exact hfull.trans (Nat.le_mul_of_pos_right _ hpos₂)
      · have hfull : 2 ^ 23 ≤ m₂ := h₂.full.resolve_right (fun hmin₂ => hsmall ⟨hmin₁, hmin₂⟩)
        exact hfull.trans (Nat.le_mul_of_pos_left _ hpos₁)
    have hlog : 23 ≤ (m₁ * m₂).log2 := (Nat.le_log2 hne).mpr hlong
    omega

/-- Signs are multiplied with the magnitudes. -/
lemma signed_mul (s t : Sign) (p q : ℚ) : signed (s * t) (p * q) = signed s p * signed t q := by
  cases s <;> cases t
  · exact (neg_mul_neg p q).symm
  · exact (neg_mul p q).symm
  · exact (mul_neg p q).symm
  · rfl

/-- The product of finite numbers is nearest to the exact product. -/
theorem nearest_mul {x y : Float32} (hx : x.isFinite = true) (hy : y.isFinite = true) :
    (x * y).isNaN = false ∧ Nearest (value x * value y) (value (x * y)) := by
  have hmul : x * y = .ofModel (.pack (UnpackedFloat.mul Format.binary32 x.toModel.unpack
    y.toModel.unpack)) := rfl
  have hrange := inRange_unpack x
  have hrange' := inRange_unpack y
  change x.toModel.unpack.isFinite = true at hx
  change y.toModel.unpack.isFinite = true at hy
  rw [hmul, value, value]
  cases hu : x.toModel.unpack with
  | notANumber | infinity => rw [hu] at hx; cases hx
  | zero s =>
    rw [partsValue, MulZeroClass.zero_mul]
    cases hv : y.toModel.unpack with
    | notANumber | infinity => rw [hv] at hy; cases hy
    | zero t => exact nearest_pack_zero (s * t)
    | finite t n f hn => exact nearest_pack_zero (s * t)
  | finite s m e hm =>
    cases hv : y.toModel.unpack with
    | notANumber | infinity => rw [hv] at hy; cases hy
    | zero t =>
      rw [partsValue, partsValue, MulZeroClass.mul_zero]
      exact nearest_pack_zero (s * t)
    | finite t n f hn =>
      rw [hu] at hrange
      rw [hv] at hrange'
      have hlong := hrange.1.add_le_targetExponent hrange'.1 hm hn
      have hproduct : ((m * n : Nat) : ℚ) * 2 ^ (e + f) = m * 2 ^ e * (n * 2 ^ f) := by
        rw [zpow_add₀ (by norm_num)]
        push_cast
        ring
      have hnearest := nearest_roundWithAccuracy (Nat.mul_pos hm hn) hlong (s * t)
      rw [hproduct, signed_mul] at hnearest
      exact hnearest

/-- The product of finite numbers is the exact product rounded. -/
theorem rounds_mul {x y : Float32} (hx : x.isFinite = true) (hy : y.isFinite = true) :
    (x * y).isNaN = false ∧ Rounds (value x * value y) (value (x * y)) :=
  (nearest_mul hx hy).imp_right Nearest.rounds

/-! ## Quotients of numbers -/

/-- Rounding makes a number. -/
lemma isNaN_roundWithAccuracy (spec : Format) (s : Sign) (m : Nat) (e : Int) (a : Accuracy) :
    (roundWithAccuracy spec s m e a).isNaN = false := by
  unfold roundWithAccuracy
  dsimp only
  split_ifs <;> rfl

/-- A finite number divided by one that is not zero makes a number. -/
lemma isNaN_div {x y : Float32} (hx : x.isFinite = true) (hy : y.isFinite = true)
    (hne : (y == 0) = false) : (x / y).isNaN = false := by
  have hdiv : x / y = .ofModel (.pack (UnpackedFloat.div Format.binary32 x.toModel.unpack
    y.toModel.unpack)) := rfl
  have hne' : ¬ ∃ s, y.toModel.unpack = .zero s := by
    rw [← beq_zero_iff, hne]
    decide
  change x.toModel.unpack.isFinite = true at hx
  change y.toModel.unpack.isFinite = true at hy
  rw [hdiv]
  refine isNaN_pack ?_
  cases hv : y.toModel.unpack with
  | notANumber | infinity => rw [hv] at hy; cases hy
  | zero t => exact absurd ⟨t, hv⟩ hne'
  | finite t n f hn =>
    cases hu : x.toModel.unpack with
    | notANumber | infinity => rw [hu] at hx; cases hx
    | zero s => rfl
    | finite s m e hm => exact isNaN_roundWithAccuracy _ _ _ _ _

/-! ## Quotients of natural numbers -/

/-- A quotient is rounded to a natural number without passing another one. -/
lemma roundHalfEven_bounds (num : Nat) {den : Nat} (hden : 0 < den) (n : Nat) :
    (n * den ≤ num → n ≤ roundHalfEven num den) ∧
      (num ≤ n * den → roundHalfEven num den ≤ n) := by
  have hdiv := Nat.div_add_mod num den
  have hmod := Nat.mod_lt num hden
  have hbounds : num / den ≤ roundHalfEven num den ∧ roundHalfEven num den ≤ num / den + 1 := by
    unfold roundHalfEven
    dsimp only
    split_ifs <;> omega
  refine ⟨fun h => ((Nat.le_div_iff_mul_le hden).mpr h).trans hbounds.1, fun h => ?_⟩
  have hle : num / den ≤ n := Nat.div_le_of_le_mul (Nat.mul_comm n den ▸ h)
  rcases Nat.eq_or_lt_of_le hle with heq | hlt
  · -- the quotient is exact
    have hexact : num % den = 0 := by
      rw [heq, Nat.mul_comm] at hdiv
      omega
    have hround : roundHalfEven num den = num / den := by
      unfold roundHalfEven
      dsimp only
      rw [if_pos (by omega)]
    rw [hround, heq]
  · exact hbounds.2.trans hlt

section Ratio

variable {num den : Nat}

/-- Whether a fraction lies below a power of two, by natural numbers. -/
lemma below_iff (num : Nat) (hden : 0 < den) (e : ℤ) :
    (match e with
      | .ofNat n => decide (num < den * Nat.pow 2 n)
      | .negSucc n => decide (num * Nat.pow 2 (n + 1) < den)) = true ↔
      (num / den : ℚ) < 2 ^ e := by
  have hpos : (0 : ℚ) < den := by exact_mod_cast hden
  cases e with
  | ofNat n =>
    rw [Int.ofNat_eq_natCast, zpow_natCast, div_lt_iff₀ hpos, mul_comm]
    exact decide_eq_true_iff.trans (by exact_mod_cast Iff.rfl)
  | negSucc n =>
    have hstep : (0 : ℚ) < 2 ^ (n + 1) := by positivity
    rw [zpow_negSucc, ← one_div, div_lt_div_iff₀ hpos hstep, MulOneClass.one_mul]
    exact decide_eq_true_iff.trans (by exact_mod_cast Iff.rfl)

/-- The logarithms of numerator and denominator give the binade of a fraction up to one. -/
lemma log2_sub_log2 (hnum : 0 < num) (hden : 0 < den) :
    (2 : ℚ) ^ ((num.log2 : ℤ) - den.log2 - 1) ≤ num / den ∧
      (num / den : ℚ) < 2 ^ ((num.log2 : ℤ) - den.log2 + 1) := by
  have hpos : (0 : ℚ) < den := by exact_mod_cast hden
  have hnumLower : ((2 : ℚ) ^ num.log2) ≤ num := by exact_mod_cast Nat.log2_self_le hnum.ne'
  have hnumUpper : (num : ℚ) < 2 ^ (num.log2 + 1) := by exact_mod_cast Nat.lt_log2_self
  have hdenLower : ((2 : ℚ) ^ den.log2) ≤ den := by exact_mod_cast Nat.log2_self_le hden.ne'
  have hdenUpper : (den : ℚ) < 2 ^ (den.log2 + 1) := by exact_mod_cast Nat.lt_log2_self
  have hlower : (num.log2 : ℤ) - den.log2 - 1 = (num.log2 : ℕ) - (den.log2 + 1 : ℕ) := by
    push_cast
    ring
  have hupper : (num.log2 : ℤ) - den.log2 + 1 = (num.log2 + 1 : ℕ) - (den.log2 : ℕ) := by
    push_cast
    ring
  rw [hlower, hupper, zpow_natCast_sub_natCast₀ two_ne_zero, zpow_natCast_sub_natCast₀ two_ne_zero]
  refine ⟨div_le_div₀ (by positivity) hnumLower hpos hdenUpper.le, ?_⟩
  exact div_lt_div₀ hnumUpper hdenLower (by positivity) (by positivity)

/-- A fraction is rounded in its own binade, or in the lowest one. -/
lemma exponentOf_spec (hnum : 0 < num) (hden : 0 < den) :
    -149 ≤ BinaryFormat.single.exponentOf num den ∧
      ((2 : ℚ) ^ (BinaryFormat.single.exponentOf num den + 23) ≤ num / den ∨
        BinaryFormat.single.exponentOf num den = -149) ∧
      (num / den : ℚ) < 2 ^ (BinaryFormat.single.exponentOf num den + 24) := by
  obtain ⟨hlower, hupper⟩ := log2_sub_log2 hnum hden
  have hbinade : ∃ b : ℤ, (2 : ℚ) ^ b ≤ num / den ∧ (num / den : ℚ) < 2 ^ (b + 1) ∧
      BinaryFormat.single.exponentOf num den = Max.max (-149) (b - 23) := by
    have hbelow := below_iff num hden ((num.log2 : ℤ) - den.log2)
    unfold BinaryFormat.exponentOf
    dsimp only
    split_ifs with h
    · exact ⟨_, hlower, by rw [sub_add_cancel]; exact hbelow.mp h, rfl⟩
    · exact ⟨_, not_lt.mp fun hlt => h (hbelow.mpr hlt), hupper, rfl⟩
  obtain ⟨b, hb, hb', heq⟩ := hbinade
  rw [heq]
  refine ⟨by omega, ?_, hb'.trans_le (zpow_le_zpow_right₀ (by norm_num) (by omega))⟩
  rcases le_or_gt (b - 23) (-149) with hsmall | hlarge
  · exact Or.inr (max_eq_left hsmall)
  · rw [max_eq_right hlarge.le, sub_add_cancel]
    exact Or.inl hb

/-- The mantissa of a fraction in its binade. -/
def mantissaOf (num den : Nat) : ℤ → Nat
  | .ofNat n => roundHalfEven num (den * Nat.pow 2 n)
  | .negSucc n => roundHalfEven (num * Nat.pow 2 (n + 1)) den

/-- The mantissa of a fraction is rounded on the multiples of the last bit. -/
lemma mantissaOf_bounds (hden : 0 < den) (t : ℤ) (n : Nat) :
    ((n : ℚ) * 2 ^ t ≤ num / den → n ≤ mantissaOf num den t) ∧
      ((num / den : ℚ) ≤ n * 2 ^ t → mantissaOf num den t ≤ n) := by
  have hpos : (0 : ℚ) < den := by exact_mod_cast hden
  cases t with
  | ofNat k =>
    have hscaled : 0 < den * 2 ^ k := Nat.mul_pos hden (Nat.two_pow_pos k)
    obtain ⟨hlower, hupper⟩ := roundHalfEven_bounds num hscaled n
    rw [Int.ofNat_eq_natCast, zpow_natCast, le_div_iff₀ hpos, div_le_iff₀ hpos]
    refine ⟨fun h => hlower ?_, fun h => hupper ?_⟩
    · have hcast : ((n * (den * 2 ^ k) : Nat) : ℚ) ≤ num := by
        push_cast
        linarith
      exact_mod_cast hcast
    · have hcast : (num : ℚ) ≤ ((n * (den * 2 ^ k) : Nat) : ℚ) := by
        push_cast
        linarith
      exact_mod_cast hcast
  | negSucc k =>
    have hstep : (0 : ℚ) < 2 ^ (k + 1) := by positivity
    obtain ⟨hlower, hupper⟩ := roundHalfEven_bounds (num * 2 ^ (k + 1)) hden n
    rw [zpow_negSucc, ← div_eq_mul_inv, div_le_div_iff₀ hstep hpos, div_le_div_iff₀ hpos hstep]
    refine ⟨fun h => hlower ?_, fun h => hupper ?_⟩
    · exact_mod_cast h
    · exact_mod_cast h

/-- A fraction is rounded on the grid of its binade. -/
lemma onGrid_mantissaOf (hnum : 0 < num) (hden : 0 < den) :
    OnGrid (num / den) (BinaryFormat.single.exponentOf num den)
      (mantissaOf num den (BinaryFormat.single.exponentOf num den)) := by
  obtain ⟨hle, hfull, -⟩ := exponentOf_spec hnum hden
  exact ⟨hle, hfull, fun n => (mantissaOf_bounds hden _ n).1,
    fun n => (mantissaOf_bounds hden _ n).2⟩

/-- The bits of a rounded fraction are the pattern of its mantissa and its exponent. -/
lemma roundRatio_eq (hnum : 0 < num) (den : Nat) :
    BinaryFormat.single.roundRatio num den =
      Min.min (pattern (mantissaOf num den (BinaryFormat.single.exponentOf num den))
        (BinaryFormat.single.exponentOf num den)) 0x7f800000 := by
  unfold BinaryFormat.roundRatio
  rw [if_neg hnum.ne']
  cases BinaryFormat.single.exponentOf num den <;> rfl

/-- A number of the bits of a canonical number is that number with a sign. -/
lemma ofBits_pattern {m : Nat} {e : ℤ} (h : Canonical m e) (hm : 0 < m) (negative : Bool) {b : Nat}
    (hb : b = Min.min (pattern m e) 0x7f800000) :
    Float32.ofBits (UInt32.ofNat (if negative then 0x80000000 + b else b)) =
      .ofModel (.pack (.finite (signOf negative) m e hm)) := by
  refine ofBits_eq ?_
  rw [toNat_pack_finite h, ← hb]
  cases negative
  · exact (Nat.zero_add b).symm
  · rfl

/-- A zero with a sign, written down by its bits. -/
lemma ofBits_zero (negative : Bool) :
    Float32.ofBits (UInt32.ofNat (if negative then 0x80000000 + 0 else 0)) =
      .ofModel (.pack (.zero (signOf negative))) := by
  refine ofBits_eq ?_
  cases negative <;> rfl

/-- A fraction is rounded to the mantissa in its binade, the infinities being the last numbers. -/
theorem value_ofRatio (hnum : 0 < num) (hden : 0 < den) (negative : Bool) :
    (ofRatio negative num den).isNaN = false ∧
      value (ofRatio negative num den) = signed (signOf negative)
        (Min.min ((mantissaOf num den (BinaryFormat.single.exponentOf num den) : ℚ) *
          2 ^ BinaryFormat.single.exponentOf num den) (2 ^ (128 : ℤ))) := by
  have hgrid := onGrid_mantissaOf hnum hden
  have hbits := roundRatio_eq hnum den
  obtain ⟨-, -, hlt⟩ := exponentOf_spec hnum hden
  obtain ⟨m, e, hcanonical, -, hpattern, k, hm, he⟩ :=
    exists_canonical hgrid.le hgrid.two_pow_le (hgrid.le_two_pow hlt)
  rw [← hpattern] at hbits
  rw [hm, he, mul_two_pow_mul_zpow]
  rcases Nat.eq_zero_or_pos m with rfl | hmpos
  · -- the fraction is too small for the least mantissa
    have hbits0 : BinaryFormat.single.roundRatio num den = 0 := hbits
    have hnone : ofRatio negative num den = .ofModel (.pack (.zero (signOf negative))) := by
      unfold ofRatio
      dsimp only
      rw [hbits0]
      exact ofBits_zero negative
    obtain ⟨hnan, hvalue⟩ := value_pack_zero (signOf negative)
    rw [hnone, hvalue, Nat.cast_zero, MulZeroClass.zero_mul, min_eq_left (by positivity),
      signed_zero]
    exact ⟨hnan, rfl⟩
  · have hfinite : ofRatio negative num den =
        .ofModel (.pack (.finite (signOf negative) m e hmpos)) :=
      ofBits_pattern hcanonical hmpos negative hbits
    rw [hfinite]
    exact value_pack_finite hcanonical hmpos (signOf negative)

/-- Nothing is rounded to zero. -/
lemma value_ofRatio_zero (negative : Bool) (den : Nat) :
    (ofRatio negative 0 den).isNaN = false ∧ value (ofRatio negative 0 den) = 0 := by
  have hnone : ofRatio negative 0 den = .ofModel (.pack (.zero (signOf negative))) :=
    ofBits_zero negative
  rw [hnone]
  exact value_pack_zero (signOf negative)

/-- A fraction is rounded to a number. -/
theorem rounds_ofRatio (num : Nat) (hden : 0 < den) (negative : Bool) :
    (ofRatio negative num den).isNaN = false ∧
      Rounds (signed (signOf negative) (num / den)) (value (ofRatio negative num den)) := by
  rcases Nat.eq_zero_or_pos num with rfl | hnum
  · obtain ⟨hnan, hvalue⟩ := value_ofRatio_zero negative den
    rw [hvalue, Nat.cast_zero, zero_div, signed_zero]
    exact ⟨hnan, Rounds.refl 0⟩
  · obtain ⟨hnan, hvalue⟩ := value_ofRatio hnum hden negative
    rw [hvalue]
    exact ⟨hnan, ((onGrid_mantissaOf hnum hden).rounds (by positivity)).signed _⟩

end Ratio

end Binary32

end SvgDisplayList
