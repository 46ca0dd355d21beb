import SvgDisplayList.Number.Decimal
import SvgDisplayList.Proofs.Number.Rounding

/-!
# Decimals of numbers

A decimal whose exact value is that of a number is read as this number
(`Decimal.toBinary32_eq_of_exact_eq`).  Reading rounds once and cuts off what is far too large or
too small; neither does anything to a value that is one of a number.

Numbers are `m · 2 ^ e`, and `m / 2 ^ k` is `m · 5 ^ k` with `k` places behind the point, so that
every finite number is read from a decimal (`Decimal.exists_toBinary32_eq`).
-/

namespace SvgDisplayList

namespace Binary32

open Float.Model Float.Model.UnpackedFloat

/-! ## Numbers of the same value -/

/-- Canonical numbers of the same value are the same. -/
lemma Canonical.eq_of_mul_eq {m n : Nat} {e f : Int} (h : Canonical m e) (h' : Canonical n f)
    (heq : (m : ℚ) * 2 ^ e = n * 2 ^ f) : m = n ∧ e = f := by
  rcases lt_trichotomy e f with hlt | rfl | hlt
  · exact absurd heq (h.lt_of_exponent_lt h' hlt).ne
  · have hne : (2 : ℚ) ^ e ≠ 0 := by positivity
    exact ⟨by exact_mod_cast mul_right_cancel₀ hne heq, rfl⟩
  · exact absurd heq (h'.lt_of_exponent_lt h hlt).ne'

/-- The magnitude of a value with a sign. -/
lemma abs_signed (s : Sign) (q : ℚ) : |signed s q| = |q| := by
  cases s
  · exact abs_neg q
  · rfl

/-- A finite number that is not zero reaches the least magnitude. -/
lemma two_zpow_le_abs_value {x : Float32} (hx : x.isFinite = true) (hne : value x ≠ 0) :
    (2 : ℚ) ^ (-149 : ℤ) ≤ |value x| := by
  have hrange := inRange_unpack x
  change x.toModel.unpack.isFinite = true at hx
  unfold value at hne ⊢
  cases hu : x.toModel.unpack with
  | notANumber | infinity => rw [hu] at hx; cases hx
  | zero s => rw [hu] at hne; exact absurd rfl hne
  | finite s m e hm =>
    rw [hu] at hrange
    have hone : (1 : ℚ) ≤ m := by exact_mod_cast hm
    rw [partsValue, abs_signed, abs_of_nonneg (by positivity)]
    calc (2 : ℚ) ^ (-149 : ℤ) ≤ 2 ^ e := zpow_le_zpow_right₀ (by norm_num) hrange.1.le
      _ ≤ m * 2 ^ e := le_mul_of_one_le_left (by positivity) hone

/-- A number is told by its value, if that is not zero. -/
theorem eq_of_value_eq {x y : Float32} (hx : x.isFinite = true) (hy : y.isFinite = true)
    (hne : value x ≠ 0) (heq : value x = value y) : x = y := by
  have hrange := inRange_unpack x
  have hrange' := inRange_unpack y
  change x.toModel.unpack.isFinite = true at hx
  change y.toModel.unpack.isFinite = true at hy
  rw [← ofModel_pack_unpack x, ← ofModel_pack_unpack y]
  unfold value at hne heq
  cases hu : x.toModel.unpack with
  | notANumber | infinity => rw [hu] at hx; cases hx
  | zero s => rw [hu] at hne; exact absurd rfl hne
  | finite s m e hm =>
    cases hv : y.toModel.unpack with
    | notANumber | infinity => rw [hv] at hy; cases hy
    | zero t => rw [heq, hv] at hne; exact absurd rfl hne
    | finite t n f hn =>
      rw [hu] at hrange
      rw [hv] at hrange'
      rw [hu, hv, partsValue, partsValue] at heq
      have hpos := hrange.pos_and_lt.1
      have hpos' := hrange'.pos_and_lt.1
      cases s <;> cases t <;> dsimp only [signed] at heq
      · obtain ⟨rfl, rfl⟩ := hrange.1.eq_of_mul_eq hrange'.1 (neg_inj.mp heq)
        rfl
      · linarith
      · linarith
      · obtain ⟨rfl, rfl⟩ := hrange.1.eq_of_mul_eq hrange'.1 heq
        rfl

end Binary32

open Binary32

/-! ## Reading decimals -/

namespace Decimal

/-- The magnitude of a decimal. -/
def magnitude (d : Decimal) : ℚ := d.coefficient * 10 ^ d.exponent

/-- The exact value of a decimal. -/
def exact (d : Decimal) : ℚ := signed (signOf d.negative) d.magnitude

/-- The number of digits of a coefficient bounds the magnitude. -/
lemma length_toDigits_le_iff (c : Nat) {k : Nat} {e t : ℤ} (hk : 0 < k) (ht : k + e = t) :
    (Nat.toDigits 10 c).length ≤ k ↔ (c : ℚ) * 10 ^ e < 10 ^ t := by
  have hpower : (0 : ℚ) < 10 ^ e := by positivity
  rw [Nat.length_toDigits_le_iff (by decide) hk, ← ht, zpow_add₀ (by norm_num), zpow_natCast,
    mul_lt_mul_iff_left₀ hpower]
  exact_mod_cast Iff.rfl

/-- A decimal of moderate magnitude is rounded as a fraction. -/
lemma exists_ofRatio {d : Decimal} (hd : d.coefficient ≠ 0)
    (hlower : (10 : ℚ) ^ (-50 : ℤ) ≤ d.magnitude) (hupper : d.magnitude < 10 ^ (40 : ℤ)) :
    ∃ num den : Nat, 0 < den ∧ (num : ℚ) / den = d.magnitude ∧
      d.toBinary32 = ofRatio d.negative num den := by
  have hcoefficient : (1 : ℚ) ≤ d.coefficient := by
    exact_mod_cast Nat.one_le_iff_ne_zero.mpr hd
  have hexponent : d.exponent < 40 := by
    by_contra hle
    have hpower : (10 : ℚ) ^ (40 : ℤ) ≤ 10 ^ d.exponent :=
      zpow_le_zpow_right₀ (by norm_num) (not_lt.mp hle)
    exact absurd hupper (not_lt.mpr (hpower.trans (le_mul_of_one_le_left (by positivity)
      hcoefficient)))
  have hlong : ¬ 40 < ((Nat.toDigits 10 d.coefficient).length : ℤ) + d.exponent := by
    have hle := (length_toDigits_le_iff d.coefficient (k := (40 - d.exponent).toNat) (by omega)
      (by omega)).mpr hupper
    omega
  have hshort : ¬ ((Nat.toDigits 10 d.coefficient).length : ℤ) + d.exponent < -50 := by
    intro hlt
    have hsmall := (length_toDigits_le_iff d.coefficient (k := (-50 - d.exponent).toNat)
      (e := d.exponent) (t := -50) (by omega) (by omega)).mp (by omega)
    exact absurd hsmall (not_lt.mpr hlower)
  unfold toBinary32
  rw [if_neg hd]
  dsimp only
  rw [if_neg hlong, if_neg hshort]
  unfold magnitude
  cases d.exponent with
  | ofNat n =>
    refine ⟨_, 1, one_pos, ?_, rfl⟩
    rw [Int.ofNat_eq_natCast, zpow_natCast, Nat.cast_one, div_one]
    exact Nat.cast_mul ..|>.trans (congrArg _ (Nat.cast_pow 10 n))
  | negSucc n =>
    refine ⟨_, 10 ^ (n + 1), by positivity, ?_, rfl⟩
    rw [zpow_negSucc, ← div_eq_mul_inv]
    push_cast
    rfl

/-- A decimal of the value of a number is read as that number. -/
theorem toBinary32_eq_of_exact_eq {d : Decimal} {x : Float32} (hx : x.isFinite = true)
    (hne : value x ≠ 0) (h : d.exact = value x) : d.toBinary32 = x := by
  have hnonneg : 0 ≤ d.magnitude := by
    unfold magnitude
    positivity
  have habs : |value x| = d.magnitude := by
    rw [← h, exact, abs_signed, abs_of_nonneg hnonneg]
  have hlower : (10 : ℚ) ^ (-50 : ℤ) ≤ d.magnitude := by
    rw [← habs]
    exact le_trans (by norm_num) (two_zpow_le_abs_value hx hne)
  have hupper : d.magnitude < 10 ^ (40 : ℤ) := by
    rw [← habs]
    exact lt_of_lt_of_le (isFinite_iff.mp hx).2 (by norm_num)
  have hd : d.coefficient ≠ 0 := by
    intro hzero
    rw [magnitude, hzero, Nat.cast_zero, MulZeroClass.zero_mul] at habs
    exact hne (abs_eq_zero.mp habs)
  obtain ⟨num, den, hden, hratio, heq⟩ := exists_ofRatio hd hlower hupper
  obtain ⟨hnan, hrounds⟩ := rounds_ofRatio num hden d.negative
  rw [hratio, ← exact, h, ← heq] at hrounds
  rw [← heq] at hnan
  have hvalue := hrounds.eq_of_isValue (isValue_value x)
  have hfinite : d.toBinary32.isFinite = true :=
    isFinite_iff.mpr ⟨hnan, hvalue ▸ (isFinite_iff.mp hx).2⟩
  exact (eq_of_value_eq hx hfinite hne hvalue.symm).symm

/-- Every finite number has the value of a decimal. -/
lemma exists_exact_eq {x : Float32} (hx : x.isFinite = true) :
    ∃ (negative : Bool) (c k : Nat), Decimal.exact ⟨negative, c, -k⟩ = value x := by
  obtain ⟨p, -, hp⟩ := parts?_of_isFinite hx
  refine ⟨p.negative, p.mantissa * 2 ^ p.exponent.toNat * 5 ^ (-p.exponent).toNat,
    (-p.exponent).toNat, ?_⟩
  rw [hp, exact, magnitude]
  congr 1
  rcases Int.eq_nat_or_neg p.exponent with ⟨n, hn | hn⟩
  · rw [hn, Int.toNat_natCast, Int.toNat_neg_natCast]
    simp
  · have hten : (10 : ℚ) ^ n = 2 ^ n * 5 ^ n := by
      rw [← mul_pow]
      norm_num
    rw [hn, neg_neg, Int.toNat_natCast, Int.toNat_neg_natCast, zpow_neg, zpow_neg, zpow_natCast,
      zpow_natCast, hten]
    push_cast
    field_simp

/-- A decimal without digits is zero with its sign. -/
lemma toBinary32_zero (negative : Bool) (e : Int) :
    toBinary32 ⟨negative, 0, e⟩ = .ofModel (.pack (.zero (signOf negative))) :=
  ofBits_zero negative

/-- A decimal that is not read as a finite number is too large. -/
lemma isInf_toBinary32 {d : Decimal} (h : d.toBinary32.isFinite = false) :
    d.toBinary32.isInf = true := by
  have hratio (num : Nat) {den : Nat} (hden : 0 < den) :
      (ofRatio d.negative num den).isNaN = false := (rounds_ofRatio num hden d.negative).1
  have hnan : d.toBinary32.isNaN = false := by
    unfold toBinary32
    split
    · exact hratio 0 one_pos
    dsimp only
    split_ifs
    · decide
    · decide
    · exact hratio 0 one_pos
    · split
      · exact hratio _ one_pos
      · exact hratio _ (Nat.pow_pos (by decide))
  generalize d.toBinary32 = x at *
  change x.toModel.unpack.isFinite = false at h
  change x.toModel.unpack.isInf = true
  rw [isNaN_eq] at hnan
  cases hu : x.toModel.unpack with
  | notANumber => rw [hu] at hnan; cases hnan
  | infinity => rfl
  | zero | finite => rw [hu] at h; cases h

/-- Every finite number is read from a decimal. -/
theorem exists_toBinary32_eq {x : Float32} (hx : x.isFinite = true) :
    ∃ (negative : Bool) (c k : Nat), toBinary32 ⟨negative, c, -k⟩ = x := by
  by_cases hzero : value x = 0
  · have hbeq : (x == 0) = true := beq_iff.mpr ⟨not_isNaN_of_isFinite hx, by decide, hzero⟩
    obtain ⟨s, hs⟩ := beq_zero_iff.mp hbeq
    refine ⟨s == .negative, 0, 0, ?_⟩
    rw [toBinary32_zero, ← ofModel_pack_unpack x, hs]
    cases s <;> rfl
  · obtain ⟨negative, c, k, hexact⟩ := exists_exact_eq hx
    exact ⟨negative, c, k, toBinary32_eq_of_exact_eq hx hzero hexact⟩

/-- The digits of a natural number are digits. -/
lemma isDigit_of_mem_toDigits (n : Nat) : ∀ c ∈ Nat.toDigits 10 n, isDigit c = true := by
  intro c hc
  have hdigit := Nat.isDigit_of_mem_toDigits (by decide) (by decide) hc
  unfold isDigit
  unfold Char.isDigit at hdigit
  simpa [Char.le_def] using hdigit

/-- The digits of a natural number have its value. -/
lemma digitsValue_toDigits (n : Nat) : digitsValue (Nat.toDigits 10 n) = n :=
  Nat.ofDigitChars_ten_toDigits

end Decimal

end SvgDisplayList
