import SvgDisplayList.Number.Binary32
import SvgDisplayList.Proofs.Number.SinglePrecision

/-!
# The values of single-precision numbers

Every number has a rational value (`Binary32.value`).  An infinity counts as the power of two at
which the finite numbers end, so that the values of all numbers but the one that is not a number
stand in the order of the numbers themselves: `lt_iff`, `le_iff` and `beq_iff` say that comparing
two numbers means comparing their values, provided that both are numbers at all.

The order of numbers is decided by their exponents before their mantissas.  That it is the order of
their values rests on the canonical form (`Canonical.lt_of_exponent_lt`): a mantissa that is not
full has the least exponent.

The second half carries the order over to `Binary32.max` and `Binary32.clamp`, in which what is not
a number plays a part of its own.
-/

namespace SvgDisplayList

namespace Binary32

open Float.Model Float.Model.UnpackedFloat

/-! ## Values -/

/-- A magnitude with a sign. -/
def signed (s : Sign) (q : ℚ) : ℚ :=
  match s with
  | .positive => q
  | .negative => -q

/-- The value of a number that has been taken apart; what is not a number counts as zero. -/
def partsValue : UnpackedFloat → ℚ
  | .notANumber => 0
  | .infinity s => signed s (2 ^ (128 : ℤ))
  | .zero _ => 0
  | .finite s m e _ => signed s (m * 2 ^ e)

/-- The value of a number. -/
def value (x : Float32) : ℚ := partsValue x.toModel.unpack

/-- The value of zero. -/
lemma value_zero : value 0 = 0 := rfl

/-- The value of one. -/
lemma value_one : value 1 = 1 := by
  have hparts : (1 : Float32).toModel.unpack = .finite .positive (2 ^ 23) (-23) (by decide) := rfl
  rw [value, hparts, partsValue, signed]
  norm_num

/-- The exponent of a finite number keeps it below the infinities. -/
lemma exponent_le_of_unpack {b : BitVec Format.binary32.numBits} {s : Sign} {m : Nat} {e : Int}
    {hm : 0 < m} (h : UnpackedFloat.unpack Format.binary32 b = .finite s m e hm) : e ≤ 104 := by
  obtain ⟨hbias, -, -⟩ := format_eq
  have hlt : (unpackExponent b).toNat < 2 ^ 8 := (unpackExponent b).isLt
  unfold UnpackedFloat.unpack at h
  dsimp only at h
  split_ifs at h with hexponent hmantissa hzero hmantissa
  · obtain ⟨-, -, rfl⟩ := UnpackedFloat.finite.inj h
    rw [hzero, hbias]
    decide
  · obtain ⟨-, -, rfl⟩ := UnpackedFloat.finite.inj h
    have hfinite := toNat_ne hexponent
    have hall : (-1#8).toNat = 255 := rfl
    rw [hbias]
    omega

namespace Canonical

variable {m₁ m₂ : Nat} {e₁ e₂ : Int}

/-- A canonical number stays below the power of two that its mantissa cannot reach. -/
lemma lt_two_zpow (h : Canonical m₁ e₁) : (m₁ : ℚ) * 2 ^ e₁ < 2 ^ (e₁ + 24) := by
  have hlt : (m₁ : ℚ) < 2 ^ 24 := by exact_mod_cast h.lt
  rw [zpow_add₀ (by norm_num) e₁ 24, mul_comm]
  exact mul_lt_mul_of_pos_left hlt (by positivity)

/-- Above the least exponent, a canonical number reaches the power of two of its leading bit. -/
lemma two_zpow_le (h : Canonical m₁ e₁) (he : -149 < e₁) : (2 : ℚ) ^ (e₁ + 23) ≤ m₁ * 2 ^ e₁ := by
  have hfull : 2 ^ 23 ≤ m₁ := h.full.resolve_right (by omega)
  have hfull' : (2 : ℚ) ^ 23 ≤ m₁ := by exact_mod_cast hfull
  rw [zpow_add₀ (by norm_num) e₁ 23, mul_comm]
  exact mul_le_mul_of_nonneg_right hfull' (by positivity)

/-- Of two canonical numbers, the one with the smaller exponent is smaller. -/
lemma lt_of_exponent_lt (h₁ : Canonical m₁ e₁) (h₂ : Canonical m₂ e₂) (h : e₁ < e₂) :
    (m₁ : ℚ) * 2 ^ e₁ < m₂ * 2 ^ e₂ := by
  have hle := h₁.le
  calc (m₁ : ℚ) * 2 ^ e₁ < 2 ^ (e₁ + 24) := h₁.lt_two_zpow
    _ ≤ 2 ^ (e₂ + 23) := zpow_le_zpow_right₀ (by norm_num) (by omega)
    _ ≤ m₂ * 2 ^ e₂ := h₂.two_zpow_le (by omega)

/-- Canonical numbers are ordered by their exponents, and then by their mantissas. -/
lemma compare_eq (h₁ : Canonical m₁ e₁) (h₂ : Canonical m₂ e₂) :
    (compare e₁ e₂).then (compare m₁ m₂) = compare ((m₁ : ℚ) * 2 ^ e₁) (m₂ * 2 ^ e₂) := by
  rcases lt_trichotomy e₁ e₂ with h | rfl | h
  · rw [compare_lt_iff_lt.mpr h, compare_lt_iff_lt.mpr (h₁.lt_of_exponent_lt h₂ h)]
    rfl
  · have hpos : (0 : ℚ) < 2 ^ e₁ := by positivity
    rw [compare_eq_iff_eq.mpr rfl, Ordering.eq_then]
    rcases lt_trichotomy m₁ m₂ with hm | rfl | hm
    · rw [compare_lt_iff_lt.mpr hm, compare_lt_iff_lt.mpr]
      exact mul_lt_mul_of_pos_right (by exact_mod_cast hm) hpos
    · rw [compare_eq_iff_eq.mpr rfl, compare_eq_iff_eq.mpr rfl]
    · rw [compare_gt_iff_gt.mpr hm, compare_gt_iff_gt.mpr]
      exact mul_lt_mul_of_pos_right (by exact_mod_cast hm) hpos
  · rw [compare_gt_iff_gt.mpr h, compare_gt_iff_gt.mpr (h₂.lt_of_exponent_lt h₁ h)]
    rfl

end Canonical

/-- Parts as numbers have them: finite ones are canonical and lie below the infinities. -/
def InRange : UnpackedFloat → Prop
  | .finite _ m e _ => Canonical m e ∧ e ≤ 104
  | _ => True

/-- The parts of a number are in range. -/
lemma inRange_unpack (x : Float32) : InRange x.toModel.unpack := by
  cases hx : x.toModel.unpack with
  | finite s m e hm => exact ⟨canonical_of_unpack hx, exponent_le_of_unpack hx⟩
  | notANumber | infinity | zero => trivial

/-- A finite magnitude lies strictly between zero and the infinities. -/
lemma InRange.pos_and_lt {s : Sign} {m : Nat} {e : Int} {hm : 0 < m}
    (h : InRange (.finite s m e hm)) :
    0 < (m : ℚ) * 2 ^ e ∧ (m : ℚ) * 2 ^ e < 2 ^ (128 : ℤ) := by
  have hpos : (0 : ℚ) < m := by exact_mod_cast hm
  have hle := h.2
  exact ⟨by positivity,
    h.1.lt_two_zpow.trans_le (zpow_le_zpow_right₀ (by norm_num) (by omega))⟩

/-! ## The order -/

/-- What comes before is less. -/
lemma some_lt_eq_compare {a b : ℚ} (h : a < b) : some .lt = some (compare a b) := by
  rw [compare_lt_iff_lt.mpr h]

/-- What comes behind is greater. -/
lemma some_gt_eq_compare {a b : ℚ} (h : b < a) : some .gt = some (compare a b) := by
  rw [compare_gt_iff_gt.mpr h]

/-- The same is equal. -/
lemma some_eq_eq_compare (a : ℚ) : some .eq = some (compare a a) := by
  rw [compare_eq_iff_eq.mpr rfl]

/-- Comparing finite numbers that have been taken apart means comparing their values. -/
lemma compare_finite_eq {s t : Sign} {m n : Nat} {e f : Int} {hm : 0 < m} {hn : 0 < n}
    (hu : InRange (.finite s m e hm)) (hv : InRange (.finite t n f hn)) :
    (UnpackedFloat.finite s m e hm).compare (.finite t n f hn) =
      some (compare (partsValue (.finite s m e hm)) (partsValue (.finite t n f hn))) := by
  obtain ⟨hpos, -⟩ := hu.pos_and_lt
  obtain ⟨hpos', -⟩ := hv.pos_and_lt
  have hmagnitudes := hu.1.compare_eq hv.1
  cases s <;> cases t
  · -- two negative numbers compare the other way round than their magnitudes
    change some ((compare e f).then (compare m n)).swap = _
    rw [hmagnitudes]
    rcases lt_trichotomy ((m : ℚ) * 2 ^ e) (n * 2 ^ f) with h | h | h
    · rw [compare_lt_iff_lt.mpr h]
      exact some_gt_eq_compare (neg_lt_neg h)
    · simp only [partsValue, signed, h, compare_eq_iff_eq.mpr]
      rfl
    · rw [compare_gt_iff_gt.mpr h]
      exact some_lt_eq_compare (neg_lt_neg h)
  · exact some_lt_eq_compare (by simp only [partsValue, signed]; linarith)
  · exact some_gt_eq_compare (by simp only [partsValue, signed]; linarith)
  · exact congrArg some hmagnitudes

/-- Comparing numbers that have been taken apart means comparing their values. -/
lemma compare_eq_of_inRange {u v : UnpackedFloat} (hu : InRange u) (hv : InRange v)
    (hu' : u.isNaN = false) (hv' : v.isNaN = false) :
    u.compare v = some (compare (partsValue u) (partsValue v)) := by
  have hinfinity : (0 : ℚ) < 2 ^ (128 : ℤ) := by positivity
  cases u <;> cases v
  case finite.finite s m e hm t n f hn => exact compare_finite_eq hu hv
  case finite.infinity s m e hm t =>
    obtain ⟨hpos, hbelow⟩ := hu.pos_and_lt
    cases s <;> cases t <;>
      first
        | exact some_lt_eq_compare (by simp only [partsValue, signed]; linarith)
        | exact some_gt_eq_compare (by simp only [partsValue, signed]; linarith)
  case infinity.finite t s m e hm =>
    obtain ⟨hpos, hbelow⟩ := hv.pos_and_lt
    cases s <;> cases t <;>
      first
        | exact some_lt_eq_compare (by simp only [partsValue, signed]; linarith)
        | exact some_gt_eq_compare (by simp only [partsValue, signed]; linarith)
  case finite.zero s m e hm t =>
    obtain ⟨hpos, -⟩ := hu.pos_and_lt
    cases s
    · exact some_lt_eq_compare (neg_lt_zero.mpr hpos)
    · exact some_gt_eq_compare hpos
  case zero.finite t s m e hm =>
    obtain ⟨hpos, -⟩ := hv.pos_and_lt
    cases s
    · exact some_gt_eq_compare (neg_lt_zero.mpr hpos)
    · exact some_lt_eq_compare hpos
  case infinity.infinity s t =>
    cases s <;> cases t
    · exact some_eq_eq_compare _
    · exact some_lt_eq_compare (by simp only [partsValue, signed]; linarith)
    · exact some_gt_eq_compare (by simp only [partsValue, signed]; linarith)
    · exact some_eq_eq_compare _
  case infinity.zero s t =>
    cases s
    · exact some_lt_eq_compare (neg_lt_zero.mpr hinfinity)
    · exact some_gt_eq_compare hinfinity
  case zero.infinity s t =>
    cases t
    · exact some_gt_eq_compare (neg_lt_zero.mpr hinfinity)
    · exact some_lt_eq_compare hinfinity
  case zero.zero s t => exact some_eq_eq_compare _
  all_goals first
    | exact absurd hu' (by decide)
    | exact absurd hv' (by decide)

variable {x y z : Float32}

/-- What is not a number has the parts of none. -/
lemma isNaN_eq (x : Float32) : x.isNaN = x.toModel.unpack.isNaN := rfl

/-- Comparing two numbers means comparing their values. -/
theorem compare_eq (hx : x.isNaN = false) (hy : y.isNaN = false) :
    x.toModel.unpack.compare y.toModel.unpack = some (compare (value x) (value y)) :=
  compare_eq_of_inRange (inRange_unpack x) (inRange_unpack y) hx hy

/-- What is not a number cannot be compared. -/
lemma compare_eq_none (h : x.isNaN = true ∨ y.isNaN = true) :
    x.toModel.unpack.compare y.toModel.unpack = none := by
  rw [isNaN_eq, isNaN_eq] at h
  revert h
  cases x.toModel.unpack <;> cases y.toModel.unpack <;>
    simp [UnpackedFloat.isNaN, UnpackedFloat.compare]

/-- A comparison that comes out is one of two numbers. -/
lemma not_isNaN_of_compare {o : Ordering}
    (h : x.toModel.unpack.compare y.toModel.unpack = some o) :
    x.isNaN = false ∧ y.isNaN = false := by
  by_contra hnot
  have hnan : x.isNaN = true ∨ y.isNaN = true := by
    rw [not_and_or, Bool.not_eq_false, Bool.not_eq_false] at hnot
    exact hnot
  rw [compare_eq_none hnan] at h
  cases h

/-- One number lies below another one if its value does. -/
theorem lt_iff : x < y ↔ x.isNaN = false ∧ y.isNaN = false ∧ value x < value y := by
  change decide (x.toModel < y.toModel) = true ↔ _
  rw [decide_eq_true_iff]
  change (x.toModel.unpack.compare y.toModel.unpack == some .lt) = true ↔ _
  rw [beq_iff_eq]
  constructor
  · intro h
    obtain ⟨hx, hy⟩ := not_isNaN_of_compare h
    rw [compare_eq hx hy, Option.some_inj] at h
    exact ⟨hx, hy, compare_lt_iff_lt.mp h⟩
  · rintro ⟨hx, hy, h⟩
    rw [compare_eq hx hy, compare_lt_iff_lt.mpr h]

/-- One number lies at or below another one if its value does. -/
theorem le_iff : x ≤ y ↔ x.isNaN = false ∧ y.isNaN = false ∧ value x ≤ value y := by
  change decide (x.toModel ≤ y.toModel) = true ↔ _
  rw [decide_eq_true_iff]
  change (x.toModel.unpack.compare y.toModel.unpack).any (·.isLE) = true ↔ _
  constructor
  · intro h
    cases ho : x.toModel.unpack.compare y.toModel.unpack with
    | none =>
      rw [ho] at h
      cases h
    | some o =>
      obtain ⟨hx, hy⟩ := not_isNaN_of_compare ho
      rw [compare_eq hx hy, Option.any_some, Ordering.isLE_iff_ne_gt] at h
      exact ⟨hx, hy, compare_le_iff_le.mp h⟩
  · rintro ⟨hx, hy, h⟩
    rw [compare_eq hx hy, Option.any_some, Ordering.isLE_iff_ne_gt]
    exact compare_le_iff_le.mpr h

/-- Numbers are equal if their values are. -/
theorem beq_iff :
    (x == y) = true ↔ x.isNaN = false ∧ y.isNaN = false ∧ value x = value y := by
  change (x.toModel.unpack.compare y.toModel.unpack == some .eq) = true ↔ _
  rw [beq_iff_eq]
  constructor
  · intro h
    obtain ⟨hx, hy⟩ := not_isNaN_of_compare h
    rw [compare_eq hx hy, Option.some_inj] at h
    exact ⟨hx, hy, compare_eq_iff_eq.mp h⟩
  · rintro ⟨hx, hy, h⟩
    rw [compare_eq hx hy, compare_eq_iff_eq.mpr h]

/-- A number that is at or below another one is a number. -/
lemma not_isNaN_left (h : x ≤ y) : x.isNaN = false := (le_iff.mp h).1

/-- A number that is at or above another one is a number. -/
lemma not_isNaN_right (h : x ≤ y) : y.isNaN = false := (le_iff.mp h).2.1

/-- A number is at or below itself. -/
lemma le_self (h : x.isNaN = false) : x ≤ x := le_iff.mpr ⟨h, h, le_rfl⟩

/-- What lies between is passed over. -/
lemma le_trans (h : x ≤ y) (h' : y ≤ z) : x ≤ z := by
  obtain ⟨hx, -, hxy⟩ := le_iff.mp h
  obtain ⟨-, hz, hyz⟩ := le_iff.mp h'
  exact le_iff.mpr ⟨hx, hz, hxy.trans hyz⟩

/-- What lies below another number is at or below it. -/
lemma le_of_lt (h : x < y) : x ≤ y := by
  obtain ⟨hx, hy, hlt⟩ := lt_iff.mp h
  exact le_iff.mpr ⟨hx, hy, hlt.le⟩

/-- Of two numbers, one that does not lie below the other is at or above it. -/
lemma le_of_not_lt (hx : x.isNaN = false) (hy : y.isNaN = false) (h : ¬ x < y) : y ≤ x := by
  refine le_iff.mpr ⟨hy, hx, not_lt.mp fun hlt => h ?_⟩
  exact lt_iff.mpr ⟨hx, hy, hlt⟩

/-- A number at or above another one does not lie below it. -/
lemma not_lt_of_le (h : x ≤ y) : ¬ y < x := fun hlt =>
  absurd (lt_iff.mp hlt).2.2 (not_lt.mpr (le_iff.mp h).2.2)

/-- What is finite is a number. -/
lemma not_isNaN_of_isFinite (h : x.isFinite = true) : x.isNaN = false := by
  change x.toModel.unpack.isFinite = true at h
  rw [isNaN_eq]
  cases hx : x.toModel.unpack <;> rw [hx] at h <;> first | rfl | cases h

/-- The finite numbers are those whose values lie between the infinities. -/
theorem isFinite_iff :
    x.isFinite = true ↔ x.isNaN = false ∧ |value x| < 2 ^ (128 : ℤ) := by
  have hinfinity : (0 : ℚ) < 2 ^ (128 : ℤ) := by positivity
  have hrange := inRange_unpack x
  change x.toModel.unpack.isFinite = true ↔ _
  rw [isNaN_eq]
  unfold value
  cases hx : x.toModel.unpack with
  | notANumber => simp [UnpackedFloat.isFinite, UnpackedFloat.isNaN]
  | zero s => simp [UnpackedFloat.isFinite, UnpackedFloat.isNaN, partsValue]
  | infinity s =>
    cases s <;>
      simp [UnpackedFloat.isFinite, UnpackedFloat.isNaN, partsValue, signed]
  | finite s m e hm =>
    rw [hx] at hrange
    obtain ⟨hpos, hbelow⟩ := hrange.pos_and_lt
    cases s <;>
      simp only [UnpackedFloat.isFinite, UnpackedFloat.isNaN, partsValue, signed, abs_neg,
        abs_of_pos hpos, hbelow, and_self]

/-! ## The greater number, and bounds -/

/-- The greater of two numbers is one of them. -/
lemma max_eq_or (a b : Float32) : max a b = a ∨ max a b = b := by
  unfold max
  split_ifs <;> simp

/-- The greater of two numbers is not below the second one. -/
lemma le_max_right {a b : Float32} (hb : b.isNaN = false) : b ≤ max a b := by
  unfold max
  split_ifs with ha hb' hlt
  · exact le_self hb
  · exact absurd hb' (by rw [hb]; decide)
  · exact le_self hb
  · exact le_of_not_lt (Bool.not_eq_true _ ▸ ha) hb hlt

/-- The greater of two numbers is not below the first one. -/
lemma le_max_left {a b : Float32} (ha : a.isNaN = false) : a ≤ max a b := by
  unfold max
  split_ifs with ha' hb hlt
  · exact absurd ha' (by rw [ha]; decide)
  · exact le_self ha
  · exact le_of_lt hlt
  · exact le_self ha

/-- The greater of two finite numbers is finite. -/
lemma isFinite_max {a b : Float32} (ha : a.isFinite = true) (hb : b.isFinite = true) :
    (max a b).isFinite = true := by
  rcases max_eq_or a b with h | h
  · rwa [h]
  · rwa [h]

/-- A number held between two bounds lies between them. -/
lemma clamp_mem {lo hi : Float32} (hx : x.isNaN = false) (h : lo ≤ hi) :
    lo ≤ clamp x lo hi ∧ clamp x lo hi ≤ hi := by
  have hlo := not_isNaN_left h
  have hhi := not_isNaN_right h
  unfold clamp
  split_ifs with hbelow habove
  · exact ⟨le_self hlo, h⟩
  · exact ⟨h, le_self hhi⟩
  · exact ⟨le_of_not_lt hx hlo hbelow, le_of_not_lt hhi hx habove⟩

end Binary32

end SvgDisplayList
