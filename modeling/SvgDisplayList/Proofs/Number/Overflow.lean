import SvgDisplayList.Proofs.Number.Arithmetic

/-!
# Results that are too large

Finite numbers end at `greatest`, and the infinities count as `2 ^ 128`.  An exact result is rounded
to the nearer of the two, so that it makes an infinity from the middle between them on
(`Nearest.abs_lt_of_lt_threshold`, `Nearest.abs_le_threshold`).  Below the infinities, rounding goes
at most half of the last unit of the largest numbers astray (`Nearest.abs_sub_le`).

Sums, differences and products are finite only of finite numbers (`isFinite_of_parts`), and sums and
differences are finite if their exact results lie below the threshold (`isFinite_add`,
`isFinite_sub`).  Where a magnitude leads at most to the threshold, a part of it leads to less
(`isFinite_add_part`, `isFinite_sub_part`).
-/

namespace SvgDisplayList

namespace Binary32

open Float.Model Float.Model.UnpackedFloat

/-! ## The last values -/

/-- The greatest value of a finite number. -/
def greatest : ℚ := 2 ^ (128 : ℤ) - 2 ^ (104 : ℤ)

/-- The magnitude from which on exact results are rounded to infinities. -/
def threshold : ℚ := 2 ^ (128 : ℤ) - 2 ^ (103 : ℤ)

/-- The threshold is in the middle between the last finite value and the infinities. -/
lemma threshold_spec : threshold = greatest + 2 ^ (103 : ℤ) ∧
    (2 : ℚ) ^ (128 : ℤ) = threshold + 2 ^ (103 : ℤ) := by
  unfold threshold greatest
  constructor <;> norm_num

/-- The greatest value of a finite number is a value. -/
lemma isValue_greatest : IsValue greatest :=
  isValue_of_eq (2 ^ 24 - 1) 104 ⟨by decide, by decide, by decide⟩
    (by unfold greatest; norm_num) (by unfold greatest; norm_num)

/-- The value of a finite number is at most the greatest one. -/
lemma abs_value_le_greatest {x : Float32} (hx : x.isFinite = true) : |value x| ≤ greatest := by
  have hlt := (isFinite_iff.mp hx).2
  obtain ⟨m, e, hcanonical, habs, -⟩ := isValue_value x
  rw [habs] at hlt ⊢
  have he : e ≤ 104 := by
    by_contra hgt
    have hlower := hcanonical.two_zpow_le (by omega)
    have hpower : (2 : ℚ) ^ (128 : ℤ) ≤ 2 ^ (e + 23) :=
      zpow_le_zpow_right₀ (by norm_num) (by omega)
    exact absurd hlt (not_lt.mpr (hpower.trans hlower))
  have hm : (m : ℚ) ≤ 2 ^ 24 - 1 := by
    have hsucc : (m : ℚ) + 1 ≤ 2 ^ 24 := by exact_mod_cast hcanonical.lt
    linarith
  calc (m : ℚ) * 2 ^ e ≤ (2 ^ 24 - 1) * 2 ^ (104 : ℤ) :=
        mul_le_mul hm (zpow_le_zpow_right₀ (by norm_num) he) (by positivity) (by norm_num)
    _ = greatest := by unfold greatest; norm_num

/-- A number is finite if its magnitude is at most that of a finite one. -/
lemma isFinite_of_abs_le {x y : Float32} (hx : x.isNaN = false) (hy : y.isFinite = true)
    (h : |value x| ≤ |value y|) : x.isFinite = true :=
  isFinite_iff.mpr ⟨hx, h.trans_lt (isFinite_iff.mp hy).2⟩

/-! ## Rounding up to the infinities -/

namespace Nearest

variable {q v : ℚ}

/-- An exact result below the threshold is not rounded to positive infinity. -/
lemma lt_of_lt_threshold (h : Nearest q v) (hq : q < threshold) : v < 2 ^ (128 : ℤ) := by
  obtain ⟨hgreatest, hinfinity⟩ := threshold_spec
  have hnear := h greatest isValue_greatest
  by_contra hle
  rw [abs_of_nonneg (by linarith : 0 ≤ v - q)] at hnear
  rcases abs_cases (greatest - q) with ⟨heq, -⟩ | ⟨heq, -⟩ <;> rw [heq] at hnear <;> linarith

/-- An exact result below the threshold is not rounded to an infinity. -/
lemma abs_lt_of_lt_threshold (h : Nearest q v) (hq : |q| < threshold) : |v| < 2 ^ (128 : ℤ) := by
  obtain ⟨hlower, hupper⟩ := abs_lt.mp hq
  exact abs_lt.mpr ⟨by linarith [h.neg.lt_of_lt_threshold (by linarith)],
    h.lt_of_lt_threshold hupper⟩

/-- An exact result that is not rounded to positive infinity does not exceed the threshold. -/
lemma le_threshold (h : Nearest q v) (hv : v ≤ greatest) : q ≤ threshold := by
  obtain ⟨hgreatest, hinfinity⟩ := threshold_spec
  have hnear := h _ isValue_infinity
  by_contra hgt
  have hstep : (0 : ℚ) < 2 ^ (103 : ℤ) := by positivity
  rw [abs_of_nonpos (by linarith : v - q ≤ 0)] at hnear
  rcases abs_cases ((2 : ℚ) ^ (128 : ℤ) - q) with ⟨heq, -⟩ | ⟨heq, -⟩ <;> rw [heq] at hnear <;>
    linarith

/-- An exact result that is not rounded to an infinity does not exceed the threshold. -/
lemma abs_le_threshold (h : Nearest q v) (hv : |v| ≤ greatest) : |q| ≤ threshold := by
  obtain ⟨hlower, hupper⟩ := abs_le.mp hv
  exact abs_le.mpr ⟨by linarith [h.neg.le_threshold (by linarith)], h.le_threshold hupper⟩

/-- Rounding up to the infinities goes at most half of the last unit astray. -/
lemma abs_sub_le (h : Nearest q v) (hq : |q| ≤ 2 ^ (128 : ℤ)) : |v - q| ≤ 2 ^ (103 : ℤ) := by
  wlog hnonneg : 0 ≤ q generalizing q v
  · have hother := this h.neg (by rwa [abs_neg]) (by linarith)
    rwa [neg_sub_neg, abs_sub_comm] at hother
  rw [abs_of_nonneg hnonneg] at hq
  have hunit : (2 : ℚ) ^ (104 : ℤ) = 2 * 2 ^ (103 : ℤ) := by norm_num
  have hpos : (0 : ℚ) < 2 ^ (104 : ℤ) := by positivity
  -- the multiple of the last unit that is nearest to the exact result
  obtain ⟨n, hle, hlt⟩ : ∃ n : Nat, (n : ℚ) ≤ q / 2 ^ (104 : ℤ) + 1 / 2 ∧
      q / 2 ^ (104 : ℤ) + 1 / 2 < n + 1 :=
    ⟨_, Nat.floor_le (by positivity), Nat.lt_floor_add_one _⟩
  have hcancel : q / 2 ^ (104 : ℤ) * 2 ^ (104 : ℤ) = q := div_mul_cancel₀ q hpos.ne'
  have hquotient : q / 2 ^ (104 : ℤ) ≤ 2 ^ 24 := by
    rw [div_le_iff₀ hpos]
    exact hq.trans (by norm_num)
  have hn : n ≤ 2 ^ 24 := by
    have hcast : (n : ℚ) < 2 ^ 24 + 1 := by linarith
    exact_mod_cast Nat.lt_succ_iff.mp (by exact_mod_cast hcast)
  have hlower := mul_le_mul_of_nonneg_right hle hpos.le
  have hupper := mul_lt_mul_of_pos_right hlt hpos
  have hvalue : IsValue (n * 2 ^ (104 : ℤ)) := by
    refine isValue_mul_zpow hn (by norm_num) ?_
    have hcast : (n : ℚ) ≤ 2 ^ 24 := by exact_mod_cast hn
    exact (mul_le_mul_of_nonneg_right hcast hpos.le).trans (by norm_num)
  refine (h _ hvalue).trans (abs_le.mpr ⟨?_, ?_⟩) <;> linarith

end Nearest

/-! ## Sums, differences and products -/

section

variable {x y : Float32}

/-- What is not finite is not finite when it has been packed. -/
lemma not_isFinite_pack {u : UnpackedFloat} (h : u.isFinite = false) :
    (Float32.ofModel (.pack u)).isFinite = false := by
  change (Float32.Model.pack u).unpack.isFinite = false
  cases u with
  | notANumber => rfl
  | infinity s =>
    rw [unpack_pack_infinity]
    rfl
  | zero | finite => cases h

/-- An operation makes finite numbers only of finite ones if it does so on their parts. -/
lemma isFinite_of_parts (op : UnpackedFloat → UnpackedFloat → UnpackedFloat)
    (hop : ∀ u v, u.isFinite = false ∨ v.isFinite = false → (op u v).isFinite = false)
    (h : (Float32.ofModel (.pack (op x.toModel.unpack y.toModel.unpack))).isFinite = true) :
    x.isFinite = true ∧ y.isFinite = true := by
  change x.toModel.unpack.isFinite = true ∧ y.toModel.unpack.isFinite = true
  by_contra hnot
  rw [not_and_or, Bool.not_eq_true, Bool.not_eq_true] at hnot
  rw [not_isFinite_pack (hop _ _ hnot)] at h
  cases h

/-- A sum is finite only of finite numbers. -/
lemma isFinite_of_add (h : (x + y).isFinite = true) : x.isFinite = true ∧ y.isFinite = true := by
  refine isFinite_of_parts (UnpackedFloat.add Format.binary32) (fun u v hparts => ?_) h
  cases u <;> cases v
  case infinity.infinity s t => cases s <;> cases t <;> rfl
  all_goals first | rfl | exact hparts.elim (fun h => by cases h) fun h => by cases h

/-- A difference is finite only of finite numbers. -/
lemma isFinite_of_sub (h : (x - y).isFinite = true) : x.isFinite = true ∧ y.isFinite = true := by
  rw [sub_eq_add] at h
  obtain ⟨hx, hy⟩ := isFinite_of_add h
  rw [isFinite_iff, isNaN_neg, value_neg, abs_neg] at hy
  exact ⟨hx, isFinite_iff.mpr hy⟩

/-- A product is finite only of finite numbers. -/
lemma isFinite_of_mul (h : (x * y).isFinite = true) : x.isFinite = true ∧ y.isFinite = true := by
  refine isFinite_of_parts (UnpackedFloat.mul Format.binary32) (fun u v hparts => ?_) h
  cases u <;> cases v
  all_goals first | rfl | exact hparts.elim (fun h => by cases h) fun h => by cases h

/-- A sum of finite numbers below the threshold is finite. -/
lemma isFinite_add (hx : x.isFinite = true) (hy : y.isFinite = true)
    (h : |value x + value y| < threshold) : (x + y).isFinite = true :=
  let ⟨hnan, hnearest⟩ := nearest_add hx hy
  isFinite_iff.mpr ⟨hnan, hnearest.abs_lt_of_lt_threshold h⟩

/-- A difference of finite numbers below the threshold is finite. -/
lemma isFinite_sub (hx : x.isFinite = true) (hy : y.isFinite = true)
    (h : |value x - value y| < threshold) : (x - y).isFinite = true :=
  let ⟨hnan, hnearest⟩ := nearest_sub hx hy
  isFinite_iff.mpr ⟨hnan, hnearest.abs_lt_of_lt_threshold h⟩

/-- A finite value is nearest to an exact result up to the threshold, and at most half of the last
unit astray. -/
lemma Nearest.spec_of_isFinite {q : ℚ} (h : Nearest q (value x)) (hx : x.isFinite = true) :
    |q| ≤ threshold ∧ |value x - q| ≤ 2 ^ (103 : ℤ) := by
  have hle := h.abs_le_threshold (abs_value_le_greatest hx)
  refine ⟨hle, h.abs_sub_le (hle.trans ?_)⟩
  unfold threshold
  norm_num

/-- The exact sum behind a finite one. -/
lemma exact_add (h : (x + y).isFinite = true) :
    |value x + value y| ≤ threshold ∧
      |value (x + y) - (value x + value y)| ≤ 2 ^ (103 : ℤ) :=
  let ⟨hx, hy⟩ := isFinite_of_add h
  (nearest_add hx hy).2.spec_of_isFinite h

/-- The exact difference behind a finite one. -/
lemma exact_sub (h : (x - y).isFinite = true) :
    |value x - value y| ≤ threshold ∧
      |value (x - y) - (value x - value y)| ≤ 2 ^ (103 : ℤ) :=
  let ⟨hx, hy⟩ := isFinite_of_sub h
  (nearest_sub hx hy).2.spec_of_isFinite h

end

/-! ## Halves and other parts -/

/-- Half of a value from one on is a value. -/
lemma isValue_half {q : ℚ} (hq : IsValue q) (hone : 1 ≤ q) : IsValue (q / 2) := by
  obtain ⟨m, e, hcanonical, habs, hle⟩ := hq
  rw [abs_of_nonneg (by linarith)] at habs hle
  have he : -149 < e := by
    by_contra hsmall
    have hlt := hcanonical.lt_two_zpow
    have hpower : (2 : ℚ) ^ (e + 24) ≤ 2 ^ (0 : ℤ) :=
      zpow_le_zpow_right₀ (by norm_num) (by omega)
    rw [zpow_zero] at hpower
    linarith
  refine isValue_of_eq m (e - 1) ⟨hcanonical.lt, by omega, ?_⟩ ?_ (by linarith)
  · exact Or.inl (hcanonical.full.resolve_right he.ne')
  · rw [habs, zpow_sub₀ (by norm_num), zpow_one]
    ring

/-- A part of a magnitude: it does not exceed it, and is less where the magnitude is above one. -/
structure IsPart (k r : ℚ) : Prop where
  nonneg : 0 ≤ k
  le : k ≤ r
  lt : 1 < r → k < r

/-- What remains below the threshold or at it with a magnitude remains below it with a part. -/
lemma IsPart.abs_add_lt {a k r : ℚ} (h : IsPart k r) (ha : |a| ≤ greatest)
    (hsum : a + r ≤ threshold) : |a + k| < threshold := by
  obtain ⟨hgreatest, -⟩ := threshold_spec
  have hunit : (1 : ℚ) < 2 ^ (103 : ℤ) := by norm_num
  obtain ⟨hlower, hupper⟩ := abs_le.mp ha
  refine abs_lt.mpr ⟨by linarith [h.nonneg], ?_⟩
  rcases le_or_gt r 1 with hone | hone
  · linarith [h.le]
  · linarith [h.lt hone]

section

variable {a k r : Float32}

/-- A part of a magnitude can be added where the magnitude can. -/
lemma isFinite_add_part (hk : k.isFinite = true) (hpart : IsPart (value k) (value r))
    (ha : a.isFinite = true) (hsum : value a + value r ≤ threshold) : (a + k).isFinite = true :=
  isFinite_add ha hk (hpart.abs_add_lt (abs_value_le_greatest ha) hsum)

/-- A part of a magnitude can be taken away where the magnitude can. -/
lemma isFinite_sub_part (hk : k.isFinite = true) (hpart : IsPart (value k) (value r))
    (ha : a.isFinite = true) (hdifference : -threshold ≤ value a - value r) :
    (a - k).isFinite = true := by
  have hneg : |-value a| ≤ greatest := by
    rw [abs_neg]
    exact abs_value_le_greatest ha
  refine isFinite_sub ha hk ?_
  rw [abs_sub_comm, sub_eq_neg_add]
  exact hpart.abs_add_lt hneg (by linarith)

end

/-- Between a half and three quarters of a value are rounded to a part of it. -/
lemma Nearest.isPart {q f v : ℚ} (h : Nearest (q * f) v) (hq : IsValue q) (hnonneg : 0 ≤ q)
    (hlower : 1 / 2 ≤ f) (hupper : f < 3 / 4) : IsPart v q := by
  have hexactLower := mul_le_mul_of_nonneg_left hlower hnonneg
  have hexactUpper := mul_le_mul_of_nonneg_left hupper.le hnonneg
  refine ⟨h.rounds.ge_of_ge isValue_zero (by linarith), h.rounds.le_of_le hq (by linarith),
    fun hone => ?_⟩
  -- half of the value is nearer to the exact part than the value itself is
  have hhalf := h _ (isValue_half hq hone.le)
  have hdistance : |q / 2 - q * f| = q * f - q / 2 := by
    rw [abs_sub_comm, abs_of_nonneg (by linarith)]
  rw [hdistance] at hhalf
  linarith [le_abs_self (v - q * f), mul_lt_mul_of_pos_left hupper (by linarith : 0 < q)]

/-- The value of two. -/
lemma value_two : value 2 = 2 := by
  have hparts : (2 : Float32).toModel.unpack = .finite .positive (2 ^ 23) (-22) (by decide) := rfl
  rw [value, hparts, partsValue, signed]
  norm_num

/-- Half of a number is exact from one on, and below one it is not above one. -/
lemma value_half {x : Float32} (hx : x.isFinite = true) :
    (x / 2).isNaN = false ∧ (value x ≤ 1 → value (x / 2) ≤ 1) ∧
      (1 ≤ value x → value (x / 2) = value x / 2) := by
  obtain ⟨hnan, hrounds⟩ := rounds_div hx (by decide : (2 : Float32).isFinite = true)
    (by rw [value_two]; norm_num)
  rw [value_two] at hrounds
  have hone : IsValue 1 := value_one ▸ isValue_value 1
  exact ⟨hnan, fun hle => hrounds.le_of_le hone (by linarith),
    fun hle => hrounds.eq_of_isValue (isValue_half (isValue_value x) hle)⟩

end Binary32

end SvgDisplayList
