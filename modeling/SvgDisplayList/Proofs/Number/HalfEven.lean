import SvgDisplayList.Proofs.Number.Rounding

/-!
# Halves go to the even side

A fraction is rounded in its own binade, to the nearest multiple of the last bit and, in the middle
between two of them, to the one with an even mantissa (`Binary32.HalfEven`).  This makes rounding a
function of the exact result (`Binary32.RoundsTo.unique`) that keeps the order of exact results
(`Binary32.RoundsTo.mono`), which faithful rounding alone is not.

Fractions are rounded in this way (`Binary32.exists_roundsTo`).
-/

namespace SvgDisplayList

namespace Binary32

/-! ## The rule -/

/-- The mantissa to which a fraction is rounded in its own binade, or in the lowest one: the nearest
one and, of two nearest ones, the even one. -/
structure HalfEven (q : ℚ) (t : ℤ) (r : Nat) : Prop where
  le : -149 ≤ t
  full : (2 : ℚ) ^ (t + 23) ≤ q ∨ t = -149
  lt : q < 2 ^ (t + 24)
  near : |(r : ℚ) * 2 ^ t - q| ≤ 2 ^ t / 2
  even : |(r : ℚ) * 2 ^ t - q| = 2 ^ t / 2 → Even r

namespace HalfEven

variable {q : ℚ} {s t : ℤ} {m r : Nat}

/-- The mantissa is a nearest one on the grid of the binade. -/
lemma nearestOnGrid (h : HalfEven q t r) : NearestOnGrid q t r := by
  have hpos : (0 : ℚ) < 2 ^ t := by positivity
  obtain ⟨hlower, hupper⟩ := abs_le.mp h.near
  have hbetween (i j : Nat) (hij : (i : ℚ) * 2 ^ t ≤ j * 2 ^ t + 2 ^ t / 2) : i ≤ j := by
    by_contra hlt
    have hsucc : (j : ℚ) + 1 ≤ i := by exact_mod_cast not_le.mp hlt
    have hstep := mul_le_mul_of_nonneg_right hsucc hpos.le
    rw [add_mul, MulOneClass.one_mul] at hstep
    linarith
  exact {
    le := h.le
    full := h.full
    lower := fun n hn => hbetween n r (by linarith)
    upper := fun n hn => hbetween r n (by linarith)
    near := h.near }

/-- A fraction has one binade. -/
lemma exponent_unique (h : HalfEven q s m) (h' : HalfEven q t r) : s = t := by
  have hle {s t : ℤ} {m r : Nat} (h : HalfEven q s m) (h' : HalfEven q t r) : t ≤ s := by
    rcases h'.full with hfull | hleast
    · have hlt := (zpow_lt_zpow_iff_right₀ (by norm_num : (1 : ℚ) < 2)).mp (hfull.trans_lt h.lt)
      omega
    · exact hleast ▸ h.le
  exact le_antisymm (hle h' h) (hle h h')

/-- A fraction is rounded to one mantissa. -/
lemma unique (h : HalfEven q t m) (h' : HalfEven q t r) : m = r := by
  have hpos : (0 : ℚ) < 2 ^ t := by positivity
  -- a mantissa that is greater than another one belongs to the same half, and both are even
  have hle {m r : Nat} (h : HalfEven q t m) (h' : HalfEven q t r) : m ≤ r := by
    by_contra hlt
    have hsucc : (r : ℚ) + 1 ≤ m := by exact_mod_cast not_le.mp hlt
    have hstep := mul_le_mul_of_nonneg_right hsucc hpos.le
    rw [add_mul, MulOneClass.one_mul] at hstep
    have hm := (abs_le.mp h.near).2
    have hr := (abs_le.mp h'.near).1
    have hmid : (m : ℚ) * 2 ^ t - q = 2 ^ t / 2 := by linarith
    have hmid' : (r : ℚ) * 2 ^ t - q = -(2 ^ t / 2) := by linarith
    have hnext : (m : ℚ) = r + 1 := by
      refine mul_right_cancel₀ hpos.ne' ?_
      rw [add_mul, MulOneClass.one_mul]
      linarith
    have hnext' : m = r + 1 := by exact_mod_cast hnext
    obtain ⟨i, hi⟩ := h.even (by rw [hmid, abs_of_pos (by positivity)])
    obtain ⟨j, hj⟩ := h'.even (by rw [hmid', abs_neg, abs_of_pos (by positivity)])
    omega
  exact le_antisymm (hle h h') (hle h' h)

/-- A fraction above the bounds of a binade is rounded in it. -/
lemma exponent_eq (h : HalfEven q t r) (hs : -149 ≤ s) (hfull : (2 : ℚ) ^ (s + 23) ≤ q)
    (hlt : q < 2 ^ (s + 24)) : t = s := by
  have hpower : (1 : ℚ) < 2 := by norm_num
  have hupper := (zpow_lt_zpow_iff_right₀ hpower).mp (hfull.trans_lt h.lt)
  rcases h.full with hfull' | hleast
  · have hlower := (zpow_lt_zpow_iff_right₀ hpower).mp (hfull'.trans_lt hlt)
    omega
  · omega

/-- A fraction below a power of two is rounded in a binade below it. -/
lemma exponent_le (h : HalfEven q t r) (hs : -149 ≤ s) (hlt : q < 2 ^ (s + 24)) : t ≤ s := by
  rcases h.full with hfull | hleast
  · have hlower := (zpow_lt_zpow_iff_right₀ (by norm_num : (1 : ℚ) < 2)).mp (hfull.trans_lt hlt)
    omega
  · omega

end HalfEven

/-- A value below a nearest one is no nearer, so the exact result reaches the middle of the two. -/
lemma Nearest.add_le_two_mul {q v w : ℚ} (h : Nearest q v) (hw : IsValue w) (hlt : w < v) :
    v + w ≤ 2 * q := by
  by_contra hmid
  have hcloser : |w - q| < v - q := abs_lt.mpr ⟨by linarith, by linarith⟩
  exact absurd (h w hw) (not_le.mpr (hcloser.trans_le (le_abs_self _)))

/-- A value above a nearest one is no nearer, so the exact result does not pass the middle between
them. -/
lemma Nearest.two_mul_le_add {q v w : ℚ} (h : Nearest q v) (hw : IsValue w) (hlt : v < w) :
    2 * q ≤ v + w := by
  have hneg := h.neg.add_le_two_mul hw.neg (neg_lt_neg hlt)
  linarith

/-- What a fraction is rounded to, the infinities being the last values. -/
def RoundsTo (q v : ℚ) : Prop :=
  ∃ t r, HalfEven q t r ∧ v = Min.min ((r : ℚ) * 2 ^ t) (2 ^ (128 : ℤ))

namespace RoundsTo

variable {q q' v v' : ℚ}

/-- Rounding leads to a nearest value. -/
lemma nearest (h : RoundsTo q v) (hq : 0 ≤ q) : Nearest q v := by
  obtain ⟨t, r, hr, rfl⟩ := h
  exact hr.nearestOnGrid.nearest hq

/-- A fraction is rounded to one value. -/
theorem unique (h : RoundsTo q v) (h' : RoundsTo q v') : v = v' := by
  obtain ⟨t, r, hr, rfl⟩ := h
  obtain ⟨t', r', hr', rfl⟩ := h'
  obtain rfl := hr.exponent_unique hr'
  rw [hr.unique hr']

/-- What a fraction is rounded to is not negative. -/
lemma nonneg (h : RoundsTo q v) : 0 ≤ v := by
  obtain ⟨t, r, -, rfl⟩ := h
  positivity

/-- What a fraction is rounded to is a value. -/
lemma isValue (h : RoundsTo q v) : IsValue v := by
  obtain ⟨t, r, hr, rfl⟩ := h
  rcases le_total ((r : ℚ) * 2 ^ t) (2 ^ (128 : ℤ)) with hle | hle
  · rw [min_eq_left hle]
    exact isValue_mul_zpow (hr.nearestOnGrid.le_two_pow hr.lt) hr.le hle
  · rw [min_eq_right hle]
    exact isValue_infinity

/-- What is rounded to a finite value is rounded to a mantissa. -/
lemma exists_halfEven (h : RoundsTo q v) (hv : v < 2 ^ (128 : ℤ)) :
    ∃ t r, HalfEven q t r ∧ v = r * 2 ^ t := by
  obtain ⟨t, r, hr, rfl⟩ := h
  rcases min_lt_iff.mp hv with hlt | hlt
  · exact ⟨t, r, hr, min_eq_left hlt.le⟩
  · exact absurd hlt (lt_irrefl _)

/-- A value is rounded to itself. -/
lemma eq_of_isValue (h : RoundsTo q v) (hq : IsValue q) (hnonneg : 0 ≤ q) : v = q :=
  (h.nearest hnonneg).rounds.eq_of_isValue hq

/-- Rounding keeps the order. -/
theorem mono (h : RoundsTo q v) (h' : RoundsTo q' v') (hq : 0 ≤ q) (hle : q ≤ q') : v ≤ v' := by
  rcases hle.eq_or_lt with rfl | hlt
  · exact (h.unique h').le
  · by_contra hgt
    have hlower := (h.nearest hq).add_le_two_mul h'.isValue (not_le.mp hgt)
    have hupper := (h'.nearest (hq.trans hle)).two_mul_le_add h.isValue (not_le.mp hgt)
    linarith

end RoundsTo

/-- Values are rounded to themselves. -/
lemma IsValue.roundsTo {v : ℚ} (h : IsValue v) (hnonneg : 0 ≤ v) : RoundsTo v v := by
  obtain ⟨m, e, hm, habs, hle⟩ := h
  rw [abs_of_nonneg hnonneg] at habs hle
  subst habs
  have hpos : (0 : ℚ) < 2 ^ e := by positivity
  refine ⟨e, m, ⟨hm.le, ?_, hm.lt_two_zpow, ?_, fun htie => ?_⟩, (min_eq_left hle).symm⟩
  · refine hm.full.imp_left fun hfull => ?_
    have hfull' : (2 : ℚ) ^ 23 ≤ m := by exact_mod_cast hfull
    rw [zpow_add₀ (by norm_num) e 23, mul_comm]
    exact mul_le_mul_of_nonneg_right hfull' hpos.le
  · rw [sub_self, abs_zero]
    positivity
  · rw [sub_self, abs_zero] at htie
    linarith

/-! ## Fractions -/

/-- A quotient is rounded to a natural number at most a half away, and a half to an even one. -/
lemma roundHalfEven_spec (num : Nat) {den : Nat} (hden : 0 < den) :
    |(roundHalfEven num den : ℚ) - num / den| ≤ 1 / 2 ∧
      (|(roundHalfEven num den : ℚ) - num / den| = 1 / 2 → Even (roundHalfEven num den)) := by
  have hpos : (0 : ℚ) < den := by exact_mod_cast hden
  have hdiv := Nat.div_add_mod' num den
  have hmod := Nat.mod_lt num hden
  have hnext : (num / den + 1) * den = num / den * den + den := Nat.succ_mul ..
  have hspec : -(den : ℤ) ≤ 2 * (roundHalfEven num den * den : Nat) - 2 * num ∧
      2 * (roundHalfEven num den * den : Nat) - 2 * num ≤ (den : ℤ) ∧
      (2 * (roundHalfEven num den * den : Nat) - 2 * num = (den : ℤ) ∨
        2 * (roundHalfEven num den * den : Nat) - 2 * num = -(den : ℤ) →
          Even (roundHalfEven num den)) := by
    unfold roundHalfEven
    dsimp only
    split_ifs with hbelow habove heven
    · exact ⟨by omega, by omega, fun h => by omega⟩
    · rw [hnext]
      exact ⟨by omega, by omega, fun h => by omega⟩
    · exact ⟨by omega, by omega, fun _ => Nat.even_iff.mpr heven⟩
    · rw [hnext]
      exact ⟨by omega, by omega, fun _ => Nat.even_iff.mpr (by omega)⟩
  obtain ⟨hlower, hupper, heven⟩ := hspec
  have hscaled : ((2 * (roundHalfEven num den * den : Nat) - 2 * num : ℤ) : ℚ) =
      2 * den * (roundHalfEven num den - num / den) := by
    push_cast
    field_simp
  have hlower' : -(den : ℚ) ≤ 2 * den * (roundHalfEven num den - num / den) := by
    rw [← hscaled]
    exact_mod_cast hlower
  have hupper' : 2 * den * (roundHalfEven num den - num / den) ≤ (den : ℚ) := by
    rw [← hscaled]
    exact_mod_cast hupper
  refine ⟨abs_le.mpr ⟨?_, ?_⟩, fun h => heven ?_⟩
  · nlinarith
  · nlinarith
  · have htie : ((2 * (roundHalfEven num den * den : Nat) - 2 * num : ℤ) : ℚ) = den ∨
        ((2 * (roundHalfEven num den * den : Nat) - 2 * num : ℤ) : ℚ) = -den := by
      rw [hscaled]
      rcases (abs_eq (by norm_num)).mp h with heq | heq <;> rw [heq]
      · exact Or.inl (by ring)
      · exact Or.inr (by ring)
    exact_mod_cast htie

section Ratio

variable {num den : Nat}

/-- The mantissa of a fraction on the multiples of a power of two is a rounded quotient. -/
lemma exists_mantissaOf_eq (num : Nat) (hden : 0 < den) (t : ℤ) :
    ∃ n d : Nat, 0 < d ∧ mantissaOf num den t = roundHalfEven n d ∧
      (num / den : ℚ) = n / d * 2 ^ t := by
  have hne : (den : ℚ) ≠ 0 := by exact_mod_cast hden.ne'
  cases t with
  | ofNat k =>
    refine ⟨num, den * 2 ^ k, Nat.mul_pos hden (Nat.two_pow_pos k), rfl, ?_⟩
    rw [Int.ofNat_eq_natCast, zpow_natCast]
    push_cast
    field_simp
  | negSucc k =>
    refine ⟨num * 2 ^ (k + 1), den, hden, rfl, ?_⟩
    rw [zpow_negSucc]
    push_cast
    field_simp

/-- A fraction is rounded in its binade, halves to the even side. -/
lemma halfEven_mantissaOf (hnum : 0 < num) (hden : 0 < den) :
    HalfEven (num / den) (BinaryFormat.single.exponentOf num den)
      (mantissaOf num den (BinaryFormat.single.exponentOf num den)) := by
  obtain ⟨hle, hfull, hlt⟩ := exponentOf_spec hnum hden
  generalize BinaryFormat.single.exponentOf num den = t at *
  obtain ⟨n, d, hd, hmantissa, hratio⟩ := exists_mantissaOf_eq num hden t
  obtain ⟨hnear, heven⟩ := roundHalfEven_spec n hd
  have hpos : (0 : ℚ) < 2 ^ t := by positivity
  have hdistance : |(roundHalfEven n d : ℚ) * 2 ^ t - num / den| =
      |(roundHalfEven n d : ℚ) - n / d| * 2 ^ t := by
    rw [hratio, ← sub_mul, abs_mul, abs_of_pos hpos]
  rw [hmantissa]
  refine ⟨hle, hfull, hlt, ?_, fun h => heven ?_⟩
  · rw [hdistance]
    linarith [mul_le_mul_of_nonneg_right hnear hpos.le]
  · rw [hdistance] at h
    exact mul_right_cancel₀ hpos.ne' (by linarith)

/-- A fraction is rounded to a number, with halves to the even side. -/
theorem exists_roundsTo (num : Nat) (hden : 0 < den) :
    ∃ v, RoundsTo (num / den) v ∧ ∀ negative, (ofRatio negative num den).isNaN = false ∧
      value (ofRatio negative num den) = signed (signOf negative) v := by
  rcases Nat.eq_zero_or_pos num with rfl | hnum
  · refine ⟨0, ⟨-149, 0, ⟨le_rfl, Or.inr rfl, ?_, ?_, fun _ => by decide⟩, ?_⟩, fun negative => ?_⟩
    · rw [Nat.cast_zero, zero_div]
      positivity
    · rw [Nat.cast_zero, MulZeroClass.zero_mul, zero_div, sub_zero, abs_zero]
      positivity
    · rw [Nat.cast_zero, MulZeroClass.zero_mul]
      exact (min_eq_left (by positivity)).symm
    · rw [signed_zero]
      exact value_ofRatio_zero negative den
  · exact ⟨_, ⟨_, _, halfEven_mantissaOf hnum hden, rfl⟩, value_ofRatio hnum hden⟩

end Ratio

end Binary32

end SvgDisplayList
