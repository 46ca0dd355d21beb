import Mathlib

/-!
# Single-precision numbers up to the sign of zero

Two numbers agree if they are the same or both zero (`Binary32.Agrees`).  Sums and products of
numbers that agree agree (`Agrees.add`, `Agrees.mul`), and the laws that hold only up to the sign of
zero are laws of agreement: zero times a finite number is zero (`zero_mul`), and adding zero changes
nothing (`add_zero`).  One times a number is that number, whatever it is (`one_mul`), and factors
can be exchanged (`Binary32.mul_comm`).

The laws are proved on numbers taken apart into sign, mantissa and exponent.  Putting such a number
together again loses nothing (`pack_unpack`), and a finite number that has been taken apart is in
the form to which results are rounded (`Canonical`), so that rounding leaves it alone.
-/

namespace SvgDisplayList

namespace Binary32

open Float.Model Float.Model.UnpackedFloat

/-! ## Taking numbers apart -/

/-- The bias of exponents, the number of bits of mantissas and the least exponent. -/
lemma format_eq :
    Format.binary32.exponentBias = 127 ∧ Format.binary32.mantissaBits = 24 ∧
      Format.binary32.minExponent = -149 := by
  decide

/-- A bit pattern consists of its sign, its exponent and its mantissa. -/
lemma packComponents_unpack (b : BitVec Format.binary32.numBits) :
    packComponents Format.binary32 (Sign.ofBitVec (unpackSign b)) (unpackExponent b)
      (unpackMantissa b) = b := by
  have hsign : ∀ v : BitVec 1, (Sign.ofBitVec v).toBitVec = v := by decide
  unfold packComponents
  rw [hsign]
  refine BitVec.eq_of_getLsbD_eq fun i hi => ?_
  have hlt : i < 32 := hi
  simp only [unpackSign, unpackExponent, unpackMantissa, BitVec.getLsbD_append, BitVec.getLsbD_cast,
    BitVec.getLsbD_extractLsb]
  simp only [Nat.sub_zero, Nat.reduceAdd, Nat.reduceSub, Nat.zero_add]
  split_ifs with hmantissa hexponent
  · rw [decide_eq_true (show i < 23 by omega), Bool.true_and]
  · rw [decide_eq_true (show i - 23 < 8 by omega), Bool.true_and, show 23 + (i - 23) = i by omega]
  · rw [decide_eq_true (show i - 23 - 8 < 1 by omega), Bool.true_and,
      show 31 + (i - 23 - 8) = i by omega]

/-- The mantissa of a normal number with its implicit bit. -/
lemma toNat_append_mantissa (v : BitVec 23) : (1#1 ++ v).toNat = 2 ^ 23 + v.toNat := by
  rw [BitVec.toNat_append, ← Nat.shiftLeft_add_eq_or_of_lt v.isLt]
  simp [Nat.shiftLeft_eq]

/-- Patterns that are not the same are not the same number. -/
lemma toNat_ne {w : Nat} {v u : BitVec w} (h : v ≠ u) : v.toNat ≠ u.toNat :=
  fun heq => h (BitVec.eq_of_toNat_eq heq)

/-- A mantissa and an exponent as finite numbers have them: no more than 24 bits, and fewer only at
the least exponent. -/
structure Canonical (m : Nat) (e : Int) : Prop where
  lt : m < 2 ^ 24
  le : -149 ≤ e
  full : 2 ^ 23 ≤ m ∨ e = -149

/-- The parts of a finite number are canonical. -/
lemma canonical_of_unpack {b : BitVec Format.binary32.numBits} {s : Sign} {m : Nat} {e : Int}
    {hm : 0 < m} (h : UnpackedFloat.unpack Format.binary32 b = .finite s m e hm) :
    Canonical m e := by
  obtain ⟨hbias, -, -⟩ := format_eq
  have hlt : (unpackMantissa b).toNat < 2 ^ 23 := (unpackMantissa b).isLt
  unfold UnpackedFloat.unpack at h
  dsimp only at h
  split_ifs at h with hexponent hmantissa hzero hmantissa
  · obtain ⟨-, rfl, rfl⟩ := UnpackedFloat.finite.inj h
    rw [hzero, hbias]
    exact ⟨by omega, by simp, by simp⟩
  · obtain ⟨-, rfl, rfl⟩ := UnpackedFloat.finite.inj h
    have hnormal : (unpackExponent b).toNat ≠ 0 := toNat_ne hzero
    rw [toNat_append_mantissa, hbias]
    exact ⟨by omega, by omega, by omega⟩

/-- Packing loses nothing of a bit pattern in which only one pattern is not a number. -/
lemma pack_unpack_bits {b : BitVec Format.binary32.numBits} (hvalid : Format.binary32.Valid b) :
    UnpackedFloat.pack Format.binary32 (UnpackedFloat.unpack Format.binary32 b) = b := by
  obtain ⟨hbias, hbits, -⟩ := format_eq
  have hparts := packComponents_unpack b
  have hmantissaLt : (unpackMantissa b).toNat < 2 ^ 23 := (unpackMantissa b).isLt
  have hexponentLt : (unpackExponent b).toNat < 2 ^ 8 := (unpackExponent b).isLt
  unfold UnpackedFloat.unpack
  dsimp only
  split_ifs with hexponent hmantissa hzero hmantissa
  · rw [hexponent, hmantissa] at hparts
    exact hparts
  · exact (hvalid.eq_packedNaN hexponent hmantissa).symm
  · rw [hzero, hmantissa] at hparts
    exact hparts
  · -- a subnormal number: the exponent is the least one, and the mantissa too short to have the
    -- implicit bit
    have hpos := toNat_ne hmantissa
    have hshort : (unpackMantissa b).toNat.log2 < 23 := (Nat.log2_lt hpos).mpr hmantissaLt
    have hbiased : ((unpackExponent b).toNat - (((127 : Nat) : Int) + ((23 : Nat) : Int)) + 1 +
        ((127 : Nat) : Int) + ((23 : Nat) : Int)).toNat = 1 := by
      rw [hzero]
      rfl
    unfold UnpackedFloat.pack
    simp only [hbias, hbits, hbiased]
    rw [if_neg (by decide), if_neg (by omega), BitVec.ofNat_toNat, BitVec.setWidth_eq, ← hzero]
    exact hparts
  · -- a normal number: the exponent is the one that was stored, and packing drops the implicit bit
    have hlow : (unpackExponent b).toNat ≠ 0 := toNat_ne hzero
    have hhigh : (unpackExponent b).toNat ≠ 255 := toNat_ne hexponent
    have hroom : ¬ 2 ^ 8 ≤ (unpackExponent b).toNat + 1 := by omega
    have hfull : (1#1 ++ unpackMantissa b).toNat.log2 = 23 := by
      rw [toNat_append_mantissa]
      exact (Nat.log2_eq_iff (by omega)).mpr ⟨by omega, by omega⟩
    have hbiased : ((unpackExponent b).toNat - (((127 : Nat) : Int) + ((23 : Nat) : Int)) +
        ((127 : Nat) : Int) + ((23 : Nat) : Int)).toNat = (unpackExponent b).toNat := by
      omega
    have hmantissa : BitVec.ofNat 23 (1#1 ++ unpackMantissa b).toNat = unpackMantissa b := by
      refine BitVec.eq_of_toNat_eq ?_
      rw [toNat_append_mantissa, BitVec.toNat_ofNat]
      omega
    unfold UnpackedFloat.pack
    simp only [hbias, hbits, hbiased]
    rw [if_neg hroom, if_pos (by rw [hfull]), BitVec.ofNat_toNat, BitVec.setWidth_eq, hmantissa]
    exact hparts

/-- Packing loses nothing of a number. -/
theorem pack_unpack (x : Float32.Model) : Float32.Model.pack x.unpack = x := by
  obtain ⟨bits, hvalid⟩ := x
  have hbits := pack_unpack_bits hvalid
  simp only [Float32.Model.pack, Float32.Model.unpack, hbits]

/-- A number is packed from its parts. -/
lemma ofModel_pack_unpack (x : Float32) :
    Float32.ofModel (Float32.Model.pack x.toModel.unpack) = x := by
  rw [pack_unpack]

/-- Zeros are packed with their signs. -/
lemma unpack_pack_zero (s : Sign) : (Float32.Model.pack (.zero s)).unpack = .zero s := by
  cases s <;> rfl

/-! ## Rounding -/

/-- Bits that are all zero are shifted out without a trace. -/
lemma shiftRight_mul_two_pow (m k : Nat) :
    (⟨m * 2 ^ k, false, false⟩ : ExtendedMantissa) >>> k = ⟨m, false, false⟩ := by
  change k.repeat ExtendedMantissa.shiftRightOne _ = _
  induction k generalizing m with
  | zero =>
    rw [Nat.pow_zero, Nat.mul_one]
    rfl
  | succ k ih =>
    have hhead : m * 2 ^ (k + 1) = m * 2 * 2 ^ k := by rw [Nat.pow_succ', Nat.mul_assoc]
    rw [Nat.repeat, hhead, ih]
    simp [ExtendedMantissa.shiftRightOne]

/-- Every factor of two adds a bit. -/
lemma log2_mul_two_pow {m : Nat} (hm : 0 < m) (k : Nat) : (m * 2 ^ k).log2 = m.log2 + k := by
  induction k with
  | zero => rw [Nat.pow_zero, Nat.mul_one, Nat.add_zero]
  | succ k ih =>
    have hne : m * 2 ^ k ≠ 0 := Nat.mul_ne_zero (by omega) (Nat.ne_of_gt (Nat.two_pow_pos k))
    rw [Nat.pow_succ', Nat.mul_left_comm, Nat.log2_two_mul hne, ih, Nat.add_assoc]

namespace Canonical

variable {m : Nat} {e : Int}

/-- A canonical number has the exponent to which numbers of its size are rounded. -/
lemma targetExponent_eq (h : Canonical m e) (hm : 0 < m) (k : Nat) :
    Format.binary32.targetExponent (totalExponent (m * 2 ^ k) (e - k)) = e := by
  obtain ⟨-, hbits, hmin⟩ := format_eq
  have hle := h.le
  have hlog : m.log2 < 24 := (Nat.log2_lt (by omega)).mpr h.lt
  unfold Format.targetExponent totalExponent
  rw [hbits, hmin, log2_mul_two_pow hm]
  rcases h.full with hfull | rfl
  · have hfull : 23 ≤ m.log2 := (Nat.le_log2 (by omega)).mpr hfull
    omega
  · omega

/-- A canonical number is shifted to its own mantissa, whatever power of two its mantissa is
multiplied by. -/
lemma shiftToTargetExponent_eq (h : Canonical m e) (hm : 0 < m) (k : Nat) :
    shiftToTargetExponent Format.binary32 (m * 2 ^ k) (e - k) .exact = (⟨m, false, false⟩, e) := by
  have hshift : (e - (e - (k : Int))).toNat = k := by omega
  unfold shiftToTargetExponent shiftToExponent
  simp only [h.targetExponent_eq hm, ExtendedMantissa.ofMantissaAndAccuracy, hshift,
    shiftRight_mul_two_pow, Int.sub_add_cancel]

/-- Rounding leaves a canonical number alone, whatever power of two its mantissa is multiplied
by. -/
lemma roundWithAccuracy_eq (h : Canonical m e) (hm : 0 < m) (s : Sign) (k : Nat) :
    roundWithAccuracy Format.binary32 s (m * 2 ^ k) (e - k) .exact = .finite s m e hm := by
  have hrounded : (⟨m, false, false⟩ : ExtendedMantissa).roundedMantissa = m := rfl
  have hagain := h.shiftToTargetExponent_eq hm 0
  rw [Nat.pow_zero, Nat.mul_one, Int.natCast_zero, Int.sub_zero] at hagain
  unfold roundWithAccuracy
  simp only [h.shiftToTargetExponent_eq hm k, hrounded, hagain]
  rw [dif_neg (by omega)]

end Canonical

/-- One times a number is that number. -/
theorem one_mul (x : Float32) : 1 * x = x := by
  have hone : (1 : Float32).toModel.unpack = .finite .positive (2 ^ 23) (-23) (by decide) := rfl
  have hmul : UnpackedFloat.mul Format.binary32 (1 : Float32).toModel.unpack x.toModel.unpack =
      x.toModel.unpack := by
    rw [hone]
    cases hx : x.toModel.unpack with
    | notANumber => rfl
    | infinity s => cases s <;> rfl
    | zero s => cases s <;> rfl
    | finite s m e hm =>
      have hsign : Sign.positive * s = s := by cases s <;> rfl
      have hexponent : -23 + e = e - (23 : Nat) := by omega
      unfold UnpackedFloat.mul
      simp only [hsign, Nat.mul_comm, hexponent]
      exact (canonical_of_unpack hx).roundWithAccuracy_eq hm s 23
  change Float32.ofModel (Float32.Model.pack (UnpackedFloat.mul Format.binary32 _ _)) = x
  rw [hmul, ofModel_pack_unpack]

/-- Products do not depend on the order of their factors. -/
protected theorem mul_comm (x y : Float32) : x * y = y * x := by
  have hsign : ∀ s t : Sign, s * t = t * s := by
    intro s t
    cases s <;> cases t <;> rfl
  have hparts : ∀ u v : UnpackedFloat,
      UnpackedFloat.mul Format.binary32 u v = UnpackedFloat.mul Format.binary32 v u := by
    intro u v
    cases u <;> cases v <;> simp only [UnpackedFloat.mul, hsign, Nat.mul_comm, Int.add_comm]
  change Float32.ofModel (Float32.Model.pack (UnpackedFloat.mul Format.binary32 _ _)) = _
  rw [hparts]
  rfl

/-! ## Agreement -/

/-- Two numbers are the same, or both are zero. -/
def Agrees (x y : Float32) : Prop := x = y ∨ (x == 0) = true ∧ (y == 0) = true

/-- Two numbers have the same parts, or both are zero. -/
def SameParts (u v : UnpackedFloat) : Prop := u = v ∨ (∃ s, u = .zero s) ∧ ∃ t, v = .zero t

namespace SameParts

variable {u u' v v' : UnpackedFloat}

/-- Sums of the same parts. -/
lemma add (hu : SameParts u u') (hv : SameParts v v') :
    SameParts (UnpackedFloat.add Format.binary32 u v)
      (UnpackedFloat.add Format.binary32 u' v') := by
  have hzeros : ∀ s t, ∃ r, UnpackedFloat.add Format.binary32 (.zero s) (.zero t) = .zero r := by
    intro s t
    cases s <;> cases t <;> exact ⟨_, rfl⟩
  rcases hu with rfl | ⟨⟨s, rfl⟩, s', rfl⟩
  · rcases hv with rfl | ⟨⟨t, rfl⟩, t', rfl⟩
    · exact Or.inl rfl
    · cases u with
      | zero s => exact Or.inr ⟨hzeros s t, hzeros s t'⟩
      | notANumber | infinity | finite => exact Or.inl rfl
  · rcases hv with rfl | ⟨⟨t, rfl⟩, t', rfl⟩
    · cases v with
      | zero t => exact Or.inr ⟨hzeros s t, hzeros s' t⟩
      | notANumber | infinity | finite => exact Or.inl rfl
    · exact Or.inr ⟨hzeros s t, hzeros s' t'⟩

/-- Products of the same parts. -/
lemma mul (hu : SameParts u u') (hv : SameParts v v') :
    SameParts (UnpackedFloat.mul Format.binary32 u v)
      (UnpackedFloat.mul Format.binary32 u' v') := by
  rcases hu with rfl | ⟨⟨s, rfl⟩, s', rfl⟩
  · rcases hv with rfl | ⟨⟨t, rfl⟩, t', rfl⟩
    · exact Or.inl rfl
    · cases u with
      | zero | finite => exact Or.inr ⟨⟨_, rfl⟩, _, rfl⟩
      | notANumber | infinity => exact Or.inl rfl
  · rcases hv with rfl | ⟨⟨t, rfl⟩, t', rfl⟩
    · cases v with
      | zero | finite => exact Or.inr ⟨⟨_, rfl⟩, _, rfl⟩
      | notANumber | infinity => exact Or.inl rfl
    · exact Or.inr ⟨⟨_, rfl⟩, _, rfl⟩

end SameParts

/-- The numbers that equal zero are the two zeros. -/
lemma beq_zero_iff {x : Float32} : (x == 0) = true ↔ ∃ s, x.toModel.unpack = .zero s := by
  have hzero : (0 : Float32).toModel.unpack = .zero .positive := rfl
  change (x.toModel.unpack.compare (0 : Float32).toModel.unpack == some .eq) = true ↔ _
  rw [hzero]
  cases x.toModel.unpack with
  | notANumber => simp [UnpackedFloat.compare]
  | infinity s => cases s <;> simp [UnpackedFloat.compare]
  | zero s => simp [UnpackedFloat.compare]
  | finite s m e hm => cases s <;> simp [UnpackedFloat.compare]

/-- Numbers agree if they have the same parts. -/
lemma agrees_iff {x y : Float32} : Agrees x y ↔ SameParts x.toModel.unpack y.toModel.unpack := by
  unfold Agrees SameParts
  rw [beq_zero_iff, beq_zero_iff]
  refine or_congr ⟨fun h => by rw [h], fun h => ?_⟩ Iff.rfl
  rw [← ofModel_pack_unpack x, h, ofModel_pack_unpack]

/-- Results agree if they are packed from the same parts. -/
lemma agrees_of_sameParts {u v : UnpackedFloat} (h : SameParts u v) :
    Agrees (.ofModel (Float32.Model.pack u)) (.ofModel (Float32.Model.pack v)) := by
  rcases h with rfl | ⟨⟨s, rfl⟩, t, rfl⟩
  · exact Or.inl rfl
  · exact agrees_iff.mpr (Or.inr ⟨⟨s, unpack_pack_zero s⟩, t, unpack_pack_zero t⟩)

namespace Agrees

variable {x x' y y' : Float32}

/-- A number agrees with itself. -/
lemma refl (x : Float32) : Agrees x x := Or.inl rfl

/-- Agreement goes both ways. -/
lemma symm (h : Agrees x y) : Agrees y x := h.imp Eq.symm And.symm

/-- What agrees with the same number agrees. -/
lemma trans {z : Float32} (h : Agrees x y) (h' : Agrees y z) : Agrees x z := by
  rcases h with rfl | h
  · exact h'
  · rcases h' with rfl | h'
    · exact Or.inr h
    · exact Or.inr ⟨h.1, h'.2⟩

/-- Sums of numbers that agree agree. -/
theorem add (hx : Agrees x x') (hy : Agrees y y') : Agrees (x + y) (x' + y') :=
  agrees_of_sameParts ((agrees_iff.mp hx).add (agrees_iff.mp hy))

/-- Products of numbers that agree agree. -/
theorem mul (hx : Agrees x x') (hy : Agrees y y') : Agrees (x * y) (x' * y') :=
  agrees_of_sameParts ((agrees_iff.mp hx).mul (agrees_iff.mp hy))

end Agrees

/-- A result agrees with a number if it is packed from the parts of the number. -/
lemma agrees_of_sameParts_unpack {u : UnpackedFloat} {x : Float32}
    (h : SameParts u x.toModel.unpack) :
    Agrees (.ofModel (Float32.Model.pack u)) x := by
  have hpacked := agrees_of_sameParts h
  rwa [ofModel_pack_unpack] at hpacked

/-- The parts of the number zero. -/
lemma unpack_zero : (0 : Float32).toModel.unpack = .zero .positive := rfl

/-- Adding zero changes nothing. -/
theorem add_zero (x : Float32) : Agrees (x + 0) x := by
  refine agrees_of_sameParts_unpack (u := UnpackedFloat.add Format.binary32 _ _) ?_
  rw [unpack_zero]
  cases x.toModel.unpack with
  | zero s => cases s <;> exact Or.inr ⟨⟨_, rfl⟩, _, rfl⟩
  | notANumber | infinity | finite => exact Or.inl rfl

/-- Adding to zero changes nothing. -/
theorem zero_add (x : Float32) : Agrees (0 + x) x := by
  refine agrees_of_sameParts_unpack (u := UnpackedFloat.add Format.binary32 _ _) ?_
  rw [unpack_zero]
  cases x.toModel.unpack with
  | zero s => cases s <;> exact Or.inr ⟨⟨_, rfl⟩, _, rfl⟩
  | notANumber | infinity | finite => exact Or.inl rfl

/-- Zero times a finite number is zero. -/
theorem zero_mul {x : Float32} (hx : x.isFinite = true) : Agrees (0 * x) 0 := by
  refine agrees_of_sameParts_unpack (u := UnpackedFloat.mul Format.binary32 _ _) ?_
  change x.toModel.unpack.isFinite = true at hx
  rw [unpack_zero]
  cases hparts : x.toModel.unpack with
  | zero | finite => exact Or.inr ⟨⟨_, rfl⟩, _, rfl⟩
  | notANumber => rw [hparts] at hx; cases hx
  | infinity s => rw [hparts] at hx; cases hx

end Binary32

end SvgDisplayList
