import SvgDisplayList.Proofs.Number.Decimal
import SvgDisplayList.Proofs.Number.HalfEven
import SvgDisplayList.Proofs.Number.MilliGrid

/-!
# Snapping is a projection

What has been snapped stays where it is (`snap_snap`), and snapping keeps the order of numbers
(`snap_mono`).

A magnitude goes to the nearest natural number of thousandths (`IsMilli`), which is rounded to
single precision, divided by a thousand and rounded again (`Snapped`).  Two grids meet there: the
values of numbers around the magnitude, and the values of numbers around a thousand times as much.
Of two grids next to each other one is finer by a factor between `1.024` and `2`.  Below `2 ^ 14`
all thousandths are values of numbers, and the nearest number leads back to them.  Where the values
are the coarser grid, a value is the nearest one to its own thousandths
(`Snapped.of_coarse_values`).  Where the thousandths are the coarser grid, the nearest value leads
back to the same thousandths (`Binary32.RoundsTo.of_coarse_thousandths`).  There the halves matter:
whole thousandths could lie in the middle between two rounded ones, and be rounded away.  But a
value has come from thousandths that are not in the middle, and no nearer value is; so it is not in
the middle itself (`lt_of_nearest`).
-/

namespace SvgDisplayList

open Binary32

/-! ## Thousandths of a magnitude -/

/-- The natural number of thousandths that is nearest to a magnitude, a half going up. -/
def IsMilli (q : ℚ) (n : Nat) : Prop := (n : ℚ) - 1 / 2 ≤ 1000 * q ∧ 1000 * q < n + 1 / 2

namespace IsMilli

variable {q q' : ℚ} {m n : Nat}

/-- A fraction is rounded to its thousandths. -/
lemma of_ratio (num : Nat) {den : Nat} (hden : 0 < den) :
    IsMilli (num / den) (roundHalfUp (1000 * num) den) := by
  have hpos : (0 : ℚ) < den := by exact_mod_cast hden
  have hscaled : (1000 : ℚ) * (num / den) = 1000 * num / den := by ring
  have hlower : roundHalfUp (1000 * num) den * (2 * den) ≤ 2 * (1000 * num) + den :=
    Nat.div_mul_le_self _ _
  have hupper : 2 * (1000 * num) + den < (roundHalfUp (1000 * num) den + 1) * (2 * den) :=
    (Nat.div_lt_iff_lt_mul (by omega)).mp (Nat.lt_succ_self _)
  have hlower' : (roundHalfUp (1000 * num) den : ℚ) * (2 * den) ≤ 2 * (1000 * num) + den := by
    exact_mod_cast hlower
  have hupper' : (2 * (1000 * num) + den : ℚ) <
      (roundHalfUp (1000 * num) den + 1) * (2 * den) := by
    exact_mod_cast hupper
  unfold IsMilli
  rw [hscaled, le_div_iff₀ hpos, div_lt_iff₀ hpos]
  constructor <;> linarith

/-- A greater magnitude has no fewer thousandths. -/
lemma mono (h : IsMilli q m) (h' : IsMilli q' n) (hle : q ≤ q') : m ≤ n := by
  have hlt : (m : ℚ) < n + 1 := by linarith [h.1, h'.2]
  have hlt' : m < n + 1 := by exact_mod_cast hlt
  omega

/-- Whole thousandths are what they are. -/
lemma eq_of_eq (h : IsMilli q n) (hq : 1000 * q = m) : n = m := by
  obtain ⟨hlower, hupper⟩ := h
  rw [hq] at hlower hupper
  have hle : (n : ℚ) < m + 1 := by linarith
  have hge : (m : ℚ) < n + 1 := by linarith
  have hle' : n < m + 1 := by exact_mod_cast hle
  have hge' : m < n + 1 := by exact_mod_cast hge
  omega

end IsMilli

/-- What a number of thousandths becomes: it is rounded, divided by a thousand and rounded again. -/
def Snapped (n : Nat) (y : ℚ) : Prop := ∃ v, RoundsTo n v ∧ RoundsTo (v / 1000) y

namespace Snapped

variable {m n : Nat} {y z : ℚ}

/-- Thousandths become one value. -/
lemma unique (h : Snapped n y) (h' : Snapped n z) : y = z := by
  obtain ⟨v, hv, hy⟩ := h
  obtain ⟨v', hv', hz⟩ := h'
  obtain rfl := hv.unique hv'
  exact hy.unique hz

/-- A thousandth is not rounded to nothing. -/
lemma pos (h : Snapped n y) (hn : 0 < n) : 0 < y := by
  obtain ⟨v, hv, hy⟩ := h
  have hone : (1 : ℚ) ≤ n := by exact_mod_cast hn
  have hge : 1 ≤ v := (hv.nearest (by positivity)).rounds.ge_of_ge isValue_one hone
  have hsmall : 1 / 1024 ≤ y :=
    (hy.nearest (by linarith)).rounds.ge_of_ge isValue_small (by linarith)
  linarith

/-- More thousandths become no smaller value. -/
lemma mono (h : Snapped m y) (h' : Snapped n z) (hle : m ≤ n) : y ≤ z := by
  obtain ⟨v, hv, hy⟩ := h
  obtain ⟨v', hv', hz⟩ := h'
  have hnonneg := hv.nonneg
  have hrounded := hv.mono hv' (by positivity) (by exact_mod_cast hle)
  exact hy.mono hz (by positivity) (by linarith)

end Snapped

/-! ## Thousandths again -/

/-- What is nearer to a multiple than half a step is rounded to it. -/
lemma halfEven_of_abs_lt {q : ℚ} {t : ℤ} {r : Nat} (ht : -149 ≤ t) (hlower : 2 ^ 23 < r)
    (hupper : r < 2 ^ 24) (hnear : |(r : ℚ) * 2 ^ t - q| < 2 ^ t / 2) : HalfEven q t r := by
  have hpos : (0 : ℚ) < 2 ^ t := by positivity
  have hlower' : (2 : ℚ) ^ 23 + 1 ≤ r := by exact_mod_cast hlower
  have hupper' : (r : ℚ) + 1 ≤ 2 ^ 24 := by exact_mod_cast hupper
  have hbelow := mul_le_mul_of_nonneg_right hlower' hpos.le
  have habove := mul_le_mul_of_nonneg_right hupper' hpos.le
  obtain ⟨hleft, hright⟩ := abs_lt.mp hnear
  refine ⟨ht, Or.inl ?_, ?_, hnear.le, fun htie => absurd htie hnear.ne⟩
  · rw [zpow_add₀ (by norm_num) t 23]
    norm_num at hbelow ⊢
    linarith
  · rw [zpow_add₀ (by norm_num) t 24]
    norm_num at habove ⊢
    linarith

/-- Below a multiple with a full mantissa there is no value up to the next multiple. -/
lemma Binary32.IsValue.le_sub {w : ℚ} (hw : IsValue w) (hnonneg : 0 ≤ w) {t : ℤ} {r : Nat}
    (hr : 2 ^ 23 < r) (hlt : w < r * 2 ^ t) : w ≤ r * 2 ^ t - 2 ^ t := by
  have hpos : (0 : ℚ) < 2 ^ t := by positivity
  obtain ⟨m, e, hm, habs, -⟩ := hw
  rw [abs_of_nonneg hnonneg] at habs
  subst habs
  by_cases hte : t ≤ e
  · obtain ⟨n, hn⟩ := OnGrid.exists_multiple (m := m) hte
    rw [hn] at hlt ⊢
    have hcount : n < r := by exact_mod_cast (mul_lt_mul_iff_left₀ hpos).mp hlt
    have hcount' : (n : ℚ) + 1 ≤ r := by exact_mod_cast hcount
    linarith [mul_le_mul_of_nonneg_right hcount' hpos.le]
  · -- a finer value lies below the leading bit
    have hfine : (m : ℚ) * 2 ^ e < 2 ^ (t + 23) :=
      hm.lt_two_zpow.trans_le (zpow_le_zpow_right₀ (by norm_num) (by omega))
    have hr' : (2 : ℚ) ^ 23 + 1 ≤ r := by exact_mod_cast hr
    rw [zpow_add₀ (by norm_num) t 23] at hfine
    have hbelow := mul_le_mul_of_nonneg_right hr' hpos.le
    norm_num at hbelow hfine
    linarith

namespace Snapped

variable {n : Nat} {y : ℚ}

/-- A power of two is whole thousandths, and comes back. -/
lemma two_pow {j : Nat} (hj : j ≤ 31) (hn : IsMilli (2 ^ j) n) : Snapped n (2 ^ j) := by
  have hmilli : n = 125 * 2 ^ (j + 3) := by
    refine hn.eq_of_eq ?_
    push_cast
    ring
  have hpower : (2 : ℚ) ^ (j + 3) ≤ 2 ^ 34 := pow_le_pow_right₀ (by norm_num) (by omega)
  have hvalue : IsValue (n : ℚ) := by
    have h125 : ((125 : Nat) : ℚ) * 2 ^ ((j + 3 : Nat) : ℤ) = n := by
      rw [hmilli, zpow_natCast]
      push_cast
      rfl
    rw [← h125]
    refine isValue_mul_zpow (by decide) (by omega) ?_
    rw [zpow_natCast]
    norm_num
    linarith
  have hquotient : (n : ℚ) / 1000 = 2 ^ j := by
    rw [hmilli]
    push_cast
    ring
  have hvalue' : IsValue ((2 : ℚ) ^ j) := by
    have hone : ((1 : Nat) : ℚ) * 2 ^ (j : ℤ) = 2 ^ j := by simp
    rw [← hone]
    refine isValue_mul_zpow (by decide) (by omega) ?_
    rw [hone, zpow_ofNat]
    exact pow_le_pow_right₀ (by norm_num) (by omega)
  refine ⟨n, hvalue.roundsTo (by positivity), ?_⟩
  rw [hquotient]
  exact hvalue'.roundsTo (by positivity)

end Snapped

/-- The unit in which the values around a power of two are counted. -/
lemma two_zpow_sub_nine (k : Nat) : (2 : ℚ) ^ ((k : ℤ) - 9) = 2 ^ k / 512 := by
  rw [zpow_sub₀ two_ne_zero, zpow_natCast]
  norm_num

/-- The ends of a binade in which natural numbers are rounded to even ones or to coarser steps. -/
lemma two_zpow_succ_add (k j : Nat) :
    (2 : ℚ) ^ (((k + 1 : Nat) : ℤ) + j) = 2 ^ (j + 1) * (2 ^ k : Nat) := by
  rw [Nat.cast_pow, Nat.cast_ofNat, ← pow_add, ← Nat.cast_add, zpow_natCast]
  congr 1
  omega

/-- A number of steps in this binade, and half a step. -/
lemma two_zpow_succ (k m : Nat) : (m : ℚ) * 2 ^ ((k + 1 : Nat) : ℤ) = 2 * (m * 2 ^ k : Nat) ∧
    (2 : ℚ) ^ ((k + 1 : Nat) : ℤ) / 2 = (2 ^ k : Nat) := by
  rw [zpow_natCast]
  push_cast
  constructor <;> ring

/-- A natural number of at most twenty-four bits is a value, also times a power of two. -/
lemma isValue_natCast_mul_two_pow {a k : Nat} (ha : a ≤ 2 ^ 24) (hk : k ≤ 64) :
    IsValue ((a : ℚ) * 2 ^ k) := by
  have ha' : (a : ℚ) ≤ 2 ^ 24 := by exact_mod_cast ha
  have hpower : (2 : ℚ) ^ k ≤ 2 ^ 64 := pow_le_pow_right₀ one_le_two hk
  rw [← zpow_natCast]
  refine isValue_mul_zpow ha (by omega) ?_
  rw [zpow_natCast]
  calc (a : ℚ) * 2 ^ k ≤ 2 ^ 24 * 2 ^ 64 :=
        mul_le_mul ha' hpower (by positivity) (by norm_num)
    _ ≤ 2 ^ (128 : ℤ) := by norm_num

/-- Single precision moves natural numbers up to the end of a binade by at most half of what lies
between two of the values there, and small ones not at all. -/
lemma Binary32.RoundsTo.abs_sub_le {n k : Nat} {v : ℚ} (hv : RoundsTo n v) (hk : k ≤ 64)
    (hn : n ≤ 2 ^ 24 * 2 ^ k) : v = n ∨ 1 ≤ k ∧ |v - n| ≤ 2 ^ k / 2 := by
  rcases hn.lt_or_eq with hlt | heq
  · rcases Nat.eq_zero_or_pos k with rfl | hpos
    · have hvalue := isValue_natCast_mul_two_pow (a := n) (k := 0) (by omega) (by decide)
      rw [pow_zero, MulOneClass.mul_one] at hvalue
      exact .inl (hv.eq_of_isValue hvalue (by positivity))
    · have hn' : (n : ℚ) ≤ (2 ^ 24 : Nat) * 2 ^ k := by exact_mod_cast hn
      have hv' : v < 2 ^ (128 : ℤ) := by
        refine (((hv.nearest (by positivity)).rounds.le_of_le
          (isValue_natCast_mul_two_pow le_rfl hk) hn')).trans_lt ?_
        have hpower : (2 : ℚ) ^ k ≤ 2 ^ 64 := pow_le_pow_right₀ one_le_two hk
        norm_num
        linarith
      obtain ⟨t, m, hm, rfl⟩ := hv.exists_halfEven hv'
      have hlt' : (n : ℚ) < 2 ^ ((k : ℤ) + 24) := by
        rw [zpow_add₀ two_ne_zero, zpow_natCast, mul_comm]
        exact_mod_cast hlt
      have hstep : (2 : ℚ) ^ t ≤ 2 ^ (k : ℤ) :=
        zpow_le_zpow_right₀ (by norm_num) (hm.exponent_le (by omega) hlt')
      rw [zpow_natCast] at hstep
      exact .inr ⟨hpos, by linarith [hm.near]⟩
  · have heq' : (n : ℚ) = (2 ^ 24 : Nat) * 2 ^ k := by exact_mod_cast heq
    have hvalue : IsValue (n : ℚ) := heq' ▸ isValue_natCast_mul_two_pow le_rfl hk
    exact .inl (hv.eq_of_isValue hvalue (by positivity))

/-- Where the values are the coarser grid, a value is the nearest one to its own thousandths. -/
lemma Snapped.of_coarse_values {k r n : Nat} (hk : k ≤ 64) (hlower : 2 ^ 23 < r)
    (hupper : 125 * r < 2 ^ 30) (hn : IsMilli (r * 2 ^ ((k : ℤ) - 9)) n) :
    Snapped n (r * 2 ^ ((k : ℤ) - 9)) := by
  have hunit := two_zpow_sub_nine k
  have hpower : (2 : ℚ) ^ k ≤ 2 ^ 64 := pow_le_pow_right₀ one_le_two hk
  have hpos : (1 : ℚ) ≤ 2 ^ k := one_le_pow₀ (by norm_num)
  have hr : (125 : ℚ) * r < 2 ^ 30 := by exact_mod_cast hupper
  have hrk := mul_lt_mul_of_pos_right hr (by linarith : (0 : ℚ) < 2 ^ k)
  obtain ⟨hbelow, habove⟩ := hn
  rw [hunit] at hbelow habove
  have hbound : n ≤ 2 ^ 24 * 2 ^ k := by
    have hlt : (n : ℚ) < 2 ^ 24 * 2 ^ k + 1 := by linarith
    have hlt' : n < 2 ^ 24 * 2 ^ k + 1 := by exact_mod_cast hlt
    omega
  obtain ⟨v, hv, -⟩ := exists_roundsTo n Nat.one_pos
  rw [Nat.cast_one, div_one] at hv
  -- the thousandths and the value are nearer to each other than half the distance of two values
  have hnear : |v - n| + 1 / 2 < 125 / 128 * 2 ^ k := by
    rcases hv.abs_sub_le hk hbound with rfl | ⟨hkpos, hle⟩
    · rw [sub_self, abs_zero]
      linarith
    · have htwo : (2 : ℚ) ^ 1 ≤ 2 ^ k := pow_le_pow_right₀ (by norm_num) hkpos
      linarith
  obtain ⟨hleft, hright⟩ := abs_le.mp (le_refl |v - n|)
  refine ⟨v, hv, _, r, halfEven_of_abs_lt (by omega) hlower (by omega) ?_, (min_eq_left ?_).symm⟩
  · rw [hunit, abs_lt]
    constructor <;> linarith
  · rw [hunit]
    norm_num
    linarith

/-- The thousandths of a nearest value are whole, and so at most half a step away from a step. -/
lemma le_of_near {u a b n' : Nat} (hnear : |(b : ℚ) / 512 - 2 * a / 1000| ≤ u / 512 / 2)
    (hn' : IsMilli (b / 512) n') : |2 * (a : ℚ) - n'| ≤ u := by
  obtain ⟨hlower, hupper⟩ := hn'
  obtain ⟨hleft, hright⟩ := abs_le.mp hnear
  have hlt : |2 * (a : ℚ) - n'| < u + 1 := abs_lt.mpr ⟨by linarith, by linarith⟩
  have hint : |2 * (a : ℤ) - n'| < u + 1 := by exact_mod_cast hlt
  have hint' : |2 * (a : ℤ) - n'| ≤ u := by omega
  exact_mod_cast hint'

/-- A value that has come from thousandths that are not in the middle between two rounded ones, and
than which no value is nearer, is not in the middle either: otherwise the value that it has come
from would stand on the other side just as far away, and there is none. -/
lemma lt_of_nearest {u a b n n' : Nat} {w : ℚ} (hu : 0 < u)
    (hnear : |(b : ℚ) / 512 - 2 * a / 1000| ≤ u / 512 / 2)
    (hnearest : |(b : ℚ) / 512 - 2 * a / 1000| ≤ |w - 2 * a / 1000|)
    (hpred : w < (b : ℚ) / 512 → w ≤ b / 512 - u / 512)
    (hn : IsMilli w n) (hn' : IsMilli (b / 512) n') (hlt : |2 * (a : ℚ) - n| < u) :
    |2 * (a : ℚ) - n'| < u := by
  obtain ⟨hlower, hupper⟩ := hn
  obtain ⟨hlower', hupper'⟩ := hn'
  obtain ⟨hleft, hright⟩ := abs_le.mp hnear
  -- the thousandths are whole, so that they are one less than half a step away
  have hwhole : |2 * (a : ℚ) - n| ≤ u - 1 := by
    have hint : |2 * (a : ℤ) - n| < u := by exact_mod_cast hlt
    have hint' : |2 * (a : ℤ) - n| ≤ u - 1 := by omega
    exact_mod_cast hint'
  obtain ⟨hn₁, hn₂⟩ := abs_le.mp hwhole
  by_contra hge
  rw [not_lt] at hge
  rcases abs_cases (2 * (a : ℚ) - n') with ⟨heq, -⟩ | ⟨heq, -⟩ <;> rw [heq] at hge
  · -- below the middle, the value is farther away than the one that it has come from
    have hfar : |w - 2 * a / 1000| ≤ (u - 1 / 2) / 1000 := abs_le.mpr ⟨by linarith, by linarith⟩
    have hb := neg_abs_le ((b : ℚ) / 512 - 2 * a / 1000)
    linarith
  · have hb := le_abs_self ((b : ℚ) / 512 - 2 * a / 1000)
    have hw : w - 2 * a / 1000 ≤ -((u - 1 / 2) / 1000) := by
      rcases abs_cases (w - 2 * (a : ℚ) / 1000) with ⟨heq, -⟩ | ⟨heq, -⟩ <;>
        rw [heq] at hnearest <;> linarith
    have hu' : (1 : ℚ) ≤ u := by exact_mod_cast hu
    have hbelow := hpred (by linarith)
    have hle : (64 : ℚ) ≤ 3 * u := by linarith
    have hge : (3 : ℚ) * u ≤ 64 := by linarith
    have hle' : 64 ≤ 3 * u := by exact_mod_cast hle
    have hge' : 3 * u ≤ 64 := by exact_mod_cast hge
    omega

/-- Where natural numbers are rounded to even ones or to coarser steps, one is nearer to what it is
rounded to than half a step, or the number of steps is even. -/
lemma Binary32.RoundsTo.exists_coarse {n k : Nat} {v : ℚ} (h : RoundsTo n v) (hk : k < 64)
    (hlower : (2 : ℚ) ^ 24 * (2 ^ k : Nat) - (2 ^ k : Nat) < v)
    (hupper : v < 2 ^ 25 * (2 ^ k : Nat)) :
    ∃ m : Nat, v = 2 * (m * 2 ^ k : Nat) ∧
      (Even m ∨ |2 * ((m * 2 ^ k : Nat) : ℚ) - n| < (2 ^ k : Nat)) := by
  have hrounds := (h.nearest (by positivity)).rounds
  have hbinade : IsValue ((2 : ℚ) ^ 24 * (2 ^ k : Nat)) := by
    exact_mod_cast isValue_natCast_mul_two_pow (a := 2 ^ 24) le_rfl hk.le
  rcases lt_or_ge (n : ℚ) (2 ^ 24 * (2 ^ k : Nat)) with hlt | hge
  · -- below the binade, only its first value is left
    have hle := hrounds.le_of_le hbinade hlt.le
    have hfirst : v = 2 ^ 24 * (2 ^ k : Nat) := by
      by_contra hne
      have hbelow := h.isValue.le_sub h.nonneg (t := k) (r := 2 ^ 24) (by norm_num)
        (by exact_mod_cast lt_of_le_of_ne hle hne)
      rw [zpow_natCast] at hbelow
      push_cast at hbelow hlower
      linarith
    refine ⟨2 ^ 23, ?_, Or.inl (by decide)⟩
    rw [hfirst]
    push_cast
    ring
  · have hend : (n : ℚ) < 2 ^ 25 * (2 ^ k : Nat) := by
      by_contra hnot
      have hnext : IsValue ((2 : ℚ) ^ 25 * (2 ^ k : Nat)) := by
        have hvalue := isValue_natCast_mul_two_pow (a := 2 ^ 24) (k := k + 1) le_rfl (by omega)
        convert hvalue using 1
        push_cast
        ring
      exact absurd (hrounds.ge_of_ge hnext (not_lt.mp hnot)) (not_le.mpr hupper)
    have hpower : ((2 ^ k : Nat) : ℚ) ≤ 2 ^ 64 := by
      exact_mod_cast Nat.pow_le_pow_right two_pos hk.le
    have hinfinity : (2 : ℚ) ^ 25 * 2 ^ 64 ≤ 2 ^ (128 : ℤ) := by norm_num
    have hfinite : v < 2 ^ (128 : ℤ) := by linarith
    obtain ⟨t, m, hm, rfl⟩ := h.exists_halfEven hfinite
    obtain rfl : t = (k + 1 : Nat) := hm.exponent_eq (by omega)
      ((two_zpow_succ_add k 23).trans_le hge) (hend.trans_eq (two_zpow_succ_add k 24).symm)
    obtain ⟨hstep, hhalf⟩ := two_zpow_succ k m
    have hnear := hm.near
    have heven := hm.even
    rw [hstep, hhalf] at hnear heven
    exact ⟨m, hstep, hnear.eq_or_lt.imp_left heven⟩

/-- Where the thousandths are the coarser grid, the thousandths of what they have become are rounded
like themselves. -/
lemma Binary32.RoundsTo.of_coarse_thousandths {k r n n' : Nat} {v w : ℚ} (h : RoundsTo n v)
    (hy : HalfEven (v / 1000) ((k : ℤ) - 9) r) (hw : IsValue w) (hnonneg : 0 ≤ w)
    (hn : IsMilli w n) (hn' : IsMilli (r * 2 ^ ((k : ℤ) - 9)) n') (hk : k < 64)
    (hlower : 2 ^ 30 ≤ 125 * r) (hupper : r < 2 ^ 24) : RoundsTo n' v := by
  have hunit : (2 : ℚ) ^ ((k : ℤ) - 9) = (2 ^ k : Nat) / 512 := by
    rw [two_zpow_sub_nine, Nat.cast_pow, Nat.cast_ofNat]
  have hb : (r : ℚ) * 2 ^ ((k : ℤ) - 9) = (r * 2 ^ k : Nat) / 512 := by
    rw [hunit, Nat.cast_mul, mul_div_assoc]
  have hlower' : (2 : ℚ) ^ 30 * (2 ^ k : Nat) ≤ 125 * (r * 2 ^ k : Nat) := by
    exact_mod_cast (Nat.mul_le_mul_right (2 ^ k) hlower).trans_eq (mul_assoc ..)
  have hupper' : ((r * 2 ^ k : Nat) : ℚ) ≤ 2 ^ 24 * (2 ^ k : Nat) := by
    exact_mod_cast Nat.mul_le_mul_right (2 ^ k) hupper.le
  have hpower : ((2 ^ k : Nat) : ℚ) ≤ 2 ^ 64 := by
    exact_mod_cast Nat.pow_le_pow_right two_pos hk.le
  have hpos : (1 : ℚ) ≤ (2 ^ k : Nat) := by exact_mod_cast Nat.one_le_two_pow
  have hinfinity : (2 : ℚ) ^ 25 * 2 ^ 64 ≤ 2 ^ (128 : ℤ) := by norm_num
  have hnear := hy.near
  have hnearest := hy.nearestOnGrid.nearest (div_nonneg h.nonneg (by norm_num)) w hw
  have hpred := hw.le_sub hnonneg (t := (k : ℤ) - 9) (r := r) (by omega)
  have hfinite : ((r * 2 ^ k : Nat) : ℚ) / 512 ≤ 2 ^ (128 : ℤ) := by linarith
  rw [hb] at hn'
  rw [hb, hunit] at hnear hpred
  rw [hb, min_eq_left hfinite] at hnearest
  obtain ⟨hleft, hright⟩ := abs_le.mp hnear
  obtain ⟨m, rfl, heven⟩ := h.exists_coarse hk (by linarith) (by linarith)
  obtain ⟨hstep, hhalf⟩ := two_zpow_succ k m
  have hcount : 2 ^ 24 * 2 ^ k < n' + 1 := by
    have hlt : (2 : ℚ) ^ 24 * (2 ^ k : Nat) < (n' + 1 : Nat) := by
      rw [Nat.cast_succ]
      linarith [hn'.2]
    exact_mod_cast hlt
  have hfull : (2 : ℚ) ^ 24 * (2 ^ k : Nat) ≤ n' := by exact_mod_cast Nat.le_of_lt_succ hcount
  have hend : (n' : ℚ) < 2 ^ 25 * (2 ^ k : Nat) := by linarith [hn'.1]
  refine ⟨(k + 1 : Nat), m, ⟨by omega, Or.inl ((two_zpow_succ_add k 23).trans_le hfull),
    hend.trans_eq (two_zpow_succ_add k 24).symm, ?_, ?_⟩, ?_⟩ <;> rw [hstep]
  · rw [hhalf]
    exact le_of_near hnear hn'
  · rw [hhalf]
    refine fun htie => heven.resolve_right fun hlt => ?_
    exact absurd htie
      (lt_of_nearest (Nat.two_pow_pos k) hnear hnearest hpred hn hn' hlt).ne
  · exact (min_eq_left (by linarith)).symm

namespace Snapped

variable {n n' : Nat} {y : ℚ}

/-- The fixed-point range in thousandths. -/
lemma isMilli_range : IsMilli (2 ^ 31) 2147483648000 := by
  constructor <;> norm_num

/-- Where all thousandths are values, the nearest value leads back to them. -/
lemma eq_of_lt (h : Snapped n y) (hn : n < 16384000) (hn' : IsMilli y n') : n' = n := by
  obtain ⟨v, hv, hy⟩ := h
  have hbound : (n : ℚ) < 16384000 := by exact_mod_cast hn
  have hvalue := isValue_natCast_mul_two_pow (a := n) (k := 0) (by omega) (by decide)
  rw [pow_zero, mul_one] at hvalue
  obtain rfl := hv.eq_of_isValue hvalue (by positivity)
  have hlt : (n : ℚ) / 1000 < 2 ^ ((-10 : ℤ) + 24) := by
    norm_num
    linarith
  have hrange : IsValue ((2 : ℚ) ^ 14) := by
    have hpower := isValue_natCast_mul_two_pow (a := 1) (k := 14) (by decide) (by decide)
    rwa [Nat.cast_one, MulOneClass.one_mul] at hpower
  have hle : y ≤ 2 ^ 14 := (hy.nearest (by positivity)).rounds.le_of_le hrange (by linarith)
  obtain ⟨t, r, hr, rfl⟩ := hy.exists_halfEven (hle.trans_lt (by norm_num))
  have hstep : (2 : ℚ) ^ t ≤ 2 ^ (-10 : ℤ) :=
    zpow_le_zpow_right₀ (by norm_num) (hr.exponent_le (by decide) hlt)
  obtain ⟨hleft, hright⟩ := abs_le.mp hr.near
  obtain ⟨hlower, hupper⟩ := hn'
  norm_num at hstep
  have hge : (n : ℚ) < n' + 1 := by linarith
  have hle : (n' : ℚ) < n + 1 := by linarith
  have hge' : n < n' + 1 := by exact_mod_cast hge
  have hle' : n' < n + 1 := by exact_mod_cast hle
  omega

/-- From the range of exponents where not all thousandths are values, the binade of the value. -/
lemma exists_binade (h : Snapped n y) (hlower : 16384000 ≤ n) (hupper : n ≤ 2147483648000) :
    ∃ v k r, RoundsTo n v ∧ HalfEven (v / 1000) ((k : ℕ) - 9 : ℤ) r ∧
      y = r * 2 ^ ((k : ℤ) - 9) ∧ k ≤ 17 ∧ 2 ^ 23 ≤ r ∧ r ≤ 2 ^ 24 := by
  obtain ⟨v, hv, hy⟩ := h
  have hrounds := (hv.nearest (by positivity)).rounds
  have hfirst : IsValue 16384000 := by
    exact_mod_cast isValue_natCast_mul_two_pow (a := 125) (k := 17) (by decide) (by decide)
  have hge : 16384000 ≤ v := hrounds.ge_of_ge hfirst (by exact_mod_cast hlower)
  have hle : v ≤ 2147483648000 := hrounds.le_of_le isValue_milli (by exact_mod_cast hupper)
  have hrange : y ≤ 2147483648 :=
    (hy.nearest (by linarith)).rounds.le_of_le isValue_range (by linarith)
  obtain ⟨t, r, hr, rfl⟩ := hy.exists_halfEven (hrange.trans_lt (by norm_num))
  have hbelow : (2 : ℚ) ^ (14 : ℤ) < 2 ^ (t + 24) := lt_of_le_of_lt (by norm_num; linarith) hr.lt
  have hleast := (zpow_lt_zpow_iff_right₀ (by norm_num : (1 : ℚ) < 2)).mp hbelow
  have hfull : (2 : ℚ) ^ (t + 23) ≤ v / 1000 := hr.full.resolve_right (by omega)
  have habove : (2 : ℚ) ^ (t + 23) ≤ 2 ^ (31 : ℤ) := hfull.trans (by norm_num; linarith)
  have hgreatest := (zpow_le_zpow_iff_right₀ (by norm_num : (1 : ℚ) < 2)).mp habove
  obtain ⟨k, rfl⟩ : ∃ k : Nat, t = k - 9 := ⟨(t + 9).toNat, by omega⟩
  exact ⟨v, k, r, hv, hr, rfl, by omega, hr.nearestOnGrid.two_pow_le.resolve_right (by omega),
    hr.nearestOnGrid.le_two_pow hr.lt⟩

/-- A power of two in the units of a binade. -/
lemma natCast_two_pow_mul (j k : Nat) :
    (((2 : Nat) ^ (j + 9) : Nat) : ℚ) * 2 ^ ((k : ℤ) - 9) = 2 ^ (k + j) := by
  rw [two_zpow_sub_nine, Nat.cast_pow, Nat.cast_ofNat, pow_add 2 j 9, pow_add]
  ring

/-- The thousandths of what thousandths become, become the same. -/
theorem again {w : ℚ} (hy : Snapped (min n 2147483648000) y) (hw : IsValue w) (hnonneg : 0 ≤ w)
    (hn : IsMilli w n) (hn' : IsMilli y n') : Snapped (min n' 2147483648000) y := by
  have hrange : Snapped 2147483648000 (2 ^ 31) := two_pow le_rfl isMilli_range
  rcases le_or_gt 2147483648000 n with hge | hlt
  · rw [min_eq_right hge] at hy
    obtain rfl := hy.unique hrange
    rwa [hn'.eq_of_eq (m := 2147483648000) (by norm_num), min_self]
  rw [min_eq_left hlt.le] at hy
  have hle : n' ≤ 2147483648000 := hn'.mono isMilli_range (hy.mono hrange hlt.le)
  rw [min_eq_left hle]
  rcases lt_or_ge n 16384000 with hsmall | hlarge
  · rwa [hy.eq_of_lt hsmall hn']
  obtain ⟨v, k, r, hv, hr, rfl, hk, hlower, hupper⟩ := hy.exists_binade hlarge hlt.le
  rcases hlower.eq_or_lt with rfl | hlower
  · rw [natCast_two_pow_mul 14 k] at hn' ⊢
    exact two_pow (by omega) hn'
  rcases hupper.eq_or_lt with rfl | hupper
  · have hbound := hy.mono hrange hlt.le
    rw [natCast_two_pow_mul 15 k] at hn' hbound ⊢
    exact two_pow ((pow_le_pow_iff_right₀ (by norm_num : (1 : ℚ) < 2)).mp hbound) hn'
  rcases lt_or_ge (125 * r) (2 ^ 30) with hvalues | hthousandths
  · exact of_coarse_values (by omega) hlower hvalues hn'
  · have hagain := hv.of_coarse_thousandths hr hw hnonneg hn hn' (by omega) hthousandths hupper
    obtain ⟨u, hu, hquotient⟩ := hy
    obtain rfl := hu.unique hv
    exact ⟨u, hagain, hquotient⟩

end Snapped

/-! ## Snapping -/

namespace FixedPoint

variable {x y : Float32}

/-- The thousandths of a finite number are those of its magnitude, held within the fixed-point
range, on its side of zero. -/
lemma exists_isMilli (hx : x.isFinite = true) :
    ∃ n : Nat, IsMilli |value x| n ∧
      (0 ≤ value x ∧ milliPoint x = (min n 2147483648000 : Nat) ∨
        value x < 0 ∧ milliPoint x = -(min n 2147483648000 : Nat)) := by
  obtain ⟨negative, num, den, hden, hvalue, hmilli⟩ := exists_toInt_milliOf hx
  have hnonneg : (0 : ℚ) ≤ num / den := by positivity
  have hround := IsMilli.of_ratio num hden
  have hpoint : milliPoint x =
      max (-2147483648000) (min 2147483648000 (milliOf x).toInt) := toInt_toMilli_ofMilli _
  refine ⟨roundHalfUp (1000 * num) den, ?_, ?_⟩
  · rwa [hvalue, abs_signed, abs_of_nonneg hnonneg]
  · rw [hvalue, hpoint, hmilli]
    cases negative with
    | false => exact Or.inl ⟨hnonneg, by rw [if_neg (by decide)]; omega⟩
    | true =>
      change 0 ≤ -((num : ℚ) / den) ∧ _ ∨ -((num : ℚ) / den) < 0 ∧ _
      rw [if_pos rfl]
      rcases hnonneg.eq_or_lt with hzero | hpos
      · -- the negative zero has no thousandths
        have hnone := hround.eq_of_eq (m := 0) (by rw [← hzero]; norm_num)
        refine Or.inl ⟨by rw [← hzero, neg_zero], ?_⟩
        rw [hnone]
        rfl
      · exact Or.inr ⟨neg_neg_iff_pos.mpr hpos, by omega⟩

/-- A number that is not finite has no thousandths. -/
lemma milliPoint_of_not_isFinite (hx : x.isFinite = false) : milliPoint x = 0 := by
  unfold milliPoint ofNumber
  rw [milliOf_of_not_isFinite hx]
  decide

/-- Of finite numbers a greater one does not have fewer thousandths. -/
lemma milliPoint_mono (hx : x.isFinite = true) (hy : y.isFinite = true)
    (hle : value x ≤ value y) : milliPoint x ≤ milliPoint y := by
  obtain ⟨m, hm, hsign⟩ := exists_isMilli hx
  obtain ⟨n, hn, hsign'⟩ := exists_isMilli hy
  rcases hsign with ⟨hnonneg, heq⟩ | ⟨hneg, heq⟩ <;>
    rcases hsign' with ⟨hnonneg', heq'⟩ | ⟨hneg', heq'⟩ <;> rw [heq, heq']
  · rw [abs_of_nonneg hnonneg] at hm
    rw [abs_of_nonneg hnonneg'] at hn
    have hmn := hm.mono hn hle
    omega
  · linarith
  · omega
  · rw [abs_of_neg hneg] at hm
    rw [abs_of_neg hneg'] at hn
    have hnm := hn.mono hm (neg_le_neg hle)
    omega

end FixedPoint

open FixedPoint

/-- Snapping rounds the thousandths to single precision, and their quotient by a thousand again. -/
lemma snapped_snap (x : Float32) : Snapped (milliPoint x).natAbs |value (snap x)| := by
  obtain ⟨negative, num, den, hden, hquotient, hsnap⟩ := exists_snap_eq x
  obtain ⟨v, hv, hinteger⟩ := exists_roundsTo (milliPoint x).natAbs one_pos
  obtain ⟨y, hy, hratio⟩ := exists_roundsTo num hden
  have hnonneg : (0 : ℚ) ≤ num / den := by positivity
  have hmagnitude : (num : ℚ) / den = v / 1000 := by
    have habs := congrArg abs hquotient
    rwa [ofInt, (hinteger _).2, abs_signed, abs_of_nonneg hnonneg, abs_div, abs_signed,
      abs_of_nonneg hv.nonneg, abs_of_pos (by norm_num)] at habs
  rw [Nat.cast_one, div_one] at hv
  rw [hmagnitude] at hy
  refine ⟨v, hv, ?_⟩
  rwa [hsnap, (hratio _).2, abs_signed, abs_of_nonneg hy.nonneg]

/-- What has no thousandths is snapped to zero. -/
lemma snap_eq_zero {x : Float32} (h : milliPoint x = 0) : snap x = 0 := by
  unfold milliPoint at h
  unfold snap
  rw [h]
  decide

/-- More thousandths do not become a smaller number. -/
lemma value_snap_mono {x y : Float32} (h : milliPoint x ≤ milliPoint y) :
    value (snap x) ≤ value (snap y) := by
  rcases le_total 0 (milliPoint x) with hx | hx
  · have habs := (snapped_snap x).mono (snapped_snap y) (by omega)
    rwa [abs_of_nonneg (value_snap_nonneg hx),
      abs_of_nonneg (value_snap_nonneg (hx.trans h))] at habs
  rcases le_total 0 (milliPoint y) with hy | hy
  · exact (value_snap_nonpos hx).trans (value_snap_nonneg hy)
  · have habs := (snapped_snap y).mono (snapped_snap x) (by omega)
    rw [abs_of_nonpos (value_snap_nonpos hx), abs_of_nonpos (value_snap_nonpos hy)] at habs
    exact neg_le_neg_iff.mp habs

/-- Snapping keeps the order of finite numbers. -/
theorem snap_mono {x y : Float32} (hx : x.isFinite = true) (hy : y.isFinite = true) (h : x ≤ y) :
    snap x ≤ snap y :=
  le_iff.mpr ⟨(rounds_snap x).1, (rounds_snap y).1,
    value_snap_mono (milliPoint_mono hx hy (le_iff.mp h).2.2)⟩

/-- Snapping again does not change the magnitude. -/
lemma abs_value_snap_snap {x : Float32} (hx : x.isFinite = true) :
    |value (snap (snap x))| = |value (snap x)| := by
  obtain ⟨n, hn, hsign⟩ := exists_isMilli hx
  obtain ⟨n', hn', hsign'⟩ := exists_isMilli (bounded_snap x).1
  have hpoint : (milliPoint x).natAbs = min n 2147483648000 := by
    rcases hsign with ⟨-, heq⟩ | ⟨-, heq⟩ <;> omega
  have hpoint' : (milliPoint (snap x)).natAbs = min n' 2147483648000 := by
    rcases hsign' with ⟨-, heq⟩ | ⟨-, heq⟩ <;> omega
  have hsnapped := snapped_snap x
  have hsnapped' := snapped_snap (snap x)
  rw [hpoint] at hsnapped
  rw [hpoint'] at hsnapped'
  exact hsnapped'.unique (hsnapped.again (isValue_value x).abs (abs_nonneg _) hn hn')

/-- Snapping keeps what has been snapped. -/
theorem snap_snap (x : Float32) : snap (snap x) = snap x := by
  have hzero : snap 0 = 0 := snap_eq_zero (by decide)
  by_cases hnone : milliPoint x = 0
  · rw [snap_eq_zero hnone, hzero]
  have hx : x.isFinite = true := by
    by_contra hx
    exact hnone (milliPoint_of_not_isFinite (Bool.eq_false_iff.mpr hx))
  have hfinite := (bounded_snap x).1
  have hfinite' := (bounded_snap (snap x)).1
  have habs := abs_value_snap_snap hx
  have hvalue : value (snap x) ≠ 0 :=
    abs_pos.mp ((snapped_snap x).pos (Int.natAbs_pos.mpr hnone))
  -- both lie on the same side of zero
  have heq : value (snap (snap x)) = value (snap x) := by
    have hfinite₀ : (0 : Float32).isFinite = true := rfl
    have hzero' : value (snap 0) = 0 := by rw [hzero, value_zero]
    rcases le_total 0 (value (snap x)) with hnonneg | hnonpos
    · have hle := value_snap_mono (milliPoint_mono hfinite₀ hfinite (value_zero.trans_le hnonneg))
      rwa [abs_of_nonneg hnonneg, abs_of_nonneg (hzero'.symm.trans_le hle)] at habs
    · have hle := value_snap_mono
        (milliPoint_mono hfinite hfinite₀ (hnonpos.trans_eq value_zero.symm))
      rw [abs_of_nonpos hnonpos, abs_of_nonpos (hle.trans_eq hzero')] at habs
      exact neg_inj.mp habs
  exact (eq_of_value_eq hfinite hfinite' hvalue heq.symm).symm

/-- Snapping is a projection that keeps the order.

Whatever a number is, snapping leaves a finite number of at most `2 ^ 31` in magnitude, and snapping
that changes nothing.  Finite numbers are in the same order after snapping. -/
theorem snap_projection (x y : Float32) :
    Bounded (snap x) ∧ snap (snap x) = snap x ∧
      (x.isFinite = true → y.isFinite = true → x ≤ y → snap x ≤ snap y) :=
  ⟨bounded_snap x, snap_snap x, snap_mono⟩

/-- Far out the thousandths themselves are rounded, so that a number that has come from no whole
thousandths can move on to its neighbour.  There it stays. -/
theorem snap_projection_farOut :
    let x : Float32 := 16777.217
    let y : Float32 := 16777.218
    (x.isFinite = true ∧ y.isFinite = true ∧ x ≤ y) ∧ (snap y == y) = false ∧
      Bounded (snap y) ∧ snap (snap y) = snap y ∧ snap x ≤ snap y := by
  intro x y
  have hx : x.isFinite = true := by decide +kernel
  have hy : y.isFinite = true := by decide +kernel
  have hle : x ≤ y := by decide +kernel
  obtain ⟨hbounded, hagain, -⟩ := snap_projection y y
  obtain ⟨-, -, hmono⟩ := snap_projection x y
  exact ⟨⟨hx, hy, hle⟩, by decide +kernel, hbounded, hagain, hmono hx hy hle⟩

end SvgDisplayList
