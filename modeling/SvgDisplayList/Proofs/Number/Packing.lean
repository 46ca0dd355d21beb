import SvgDisplayList.Proofs.Number.Value

/-!
# The bit patterns of numbers

A number is put together from its sign, its exponent field and its mantissa field.  Packing is taken
apart by the three forms of canonical numbers: a full mantissa loses its leading bit (`pack_full`),
a short one is kept as it is (`pack_short`), and an exponent beyond the finite ones makes an
infinity (`pack_large`).  So a canonical number that is packed keeps its value up to the infinities
(`value_pack_finite`), and its bits are the pattern of its magnitude with its sign in front
(`toNat_pack_finite`).

In the other direction, the parts that are read off the fields of a finite number have the value of
the number (`parts?_of_isFinite`).
-/

namespace SvgDisplayList

namespace Binary32

open Float.Model Float.Model.UnpackedFloat

/-! ## Fields -/

/-- A bit pattern as a number. -/
lemma toNat_packComponents (s : Sign) (e : BitVec 8) (m : BitVec 23) :
    (packComponents Format.binary32 s e m).toNat =
      s.toBitVec.toNat * 2 ^ 31 + e.toNat * 2 ^ 23 + m.toNat := by
  unfold packComponents
  rw [BitVec.toNat_append, ← Nat.shiftLeft_add_eq_or_of_lt m.isLt, BitVec.toNat_append,
    ← Nat.shiftLeft_add_eq_or_of_lt e.isLt, Nat.shiftLeft_eq, Nat.shiftLeft_eq]
  ring

/-- The mantissa field of a bit pattern. -/
lemma toNat_unpackMantissa (b : BitVec Format.binary32.numBits) :
    (unpackMantissa b).toNat = b.toNat % 2 ^ 23 := by
  simp [unpackMantissa, BitVec.extractLsb_toNat]

/-- The exponent field of a bit pattern. -/
lemma toNat_unpackExponent (b : BitVec Format.binary32.numBits) :
    (unpackExponent b).toNat = b.toNat / 2 ^ 23 % 2 ^ 8 := by
  simp [unpackExponent, BitVec.extractLsb_toNat, Nat.shiftRight_eq_div_pow]

/-- The sign bit of a bit pattern. -/
lemma toNat_unpackSign (b : BitVec Format.binary32.numBits) :
    (unpackSign b).toNat = b.toNat / 2 ^ 31 % 2 := by
  simp [unpackSign, BitVec.extractLsb_toNat, Nat.shiftRight_eq_div_pow]

/-- The sign of a bit pattern is the one that it was put together with. -/
lemma unpackSign_packComponents (s : Sign) (e : BitVec 8) (m : BitVec 23) :
    Sign.ofBitVec (unpackSign (packComponents Format.binary32 s e m)) = s := by
  have hsign : unpackSign (packComponents Format.binary32 s e m) = s.toBitVec := by
    refine BitVec.eq_of_toNat_eq ?_
    have he := e.isLt
    have hm := m.isLt
    have hs := s.toBitVec.isLt
    rw [toNat_unpackSign, toNat_packComponents]
    omega
  rw [hsign]
  cases s <;> rfl

/-! ## Packing -/

section Pack

variable {s : Sign} {m : Nat} {e : Int} {hm : 0 < m}

/-- A magnitude with an exponent beyond the finite ones is packed as an infinity. -/
lemma pack_large (he : 105 ≤ e) :
    UnpackedFloat.pack Format.binary32 (.finite s m e hm) = packedInfinity Format.binary32 s := by
  obtain ⟨hbias, -, -⟩ := format_eq
  have hlarge : 2 ^ 8 ≤ (e + ((127 : Nat) : Int) + ((23 : Nat) : Int)).toNat + 1 := by omega
  unfold UnpackedFloat.pack
  simp only [hbias]
  rw [if_pos hlarge]

/-- A full mantissa is packed without its leading bit. -/
lemma pack_full (h : Canonical m e) (he : e ≤ 104) (hfull : 2 ^ 23 ≤ m) :
    UnpackedFloat.pack Format.binary32 (.finite s m e hm) =
      packComponents Format.binary32 s (BitVec.ofNat 8 (e + 150).toNat) (BitVec.ofNat 23 m) := by
  obtain ⟨hbias, hbits, -⟩ := format_eq
  have hle := h.le
  have hroom : ¬ 2 ^ 8 ≤ (e + ((127 : Nat) : Int) + ((23 : Nat) : Int)).toNat + 1 := by omega
  have hlog : m.log2 = 23 := (Nat.log2_eq_iff (by omega)).mpr ⟨hfull, h.lt⟩
  have hexponent : e + ((127 : Nat) : Int) + ((23 : Nat) : Int) = e + 150 := by omega
  unfold UnpackedFloat.pack
  simp only [hbias, hbits]
  rw [if_neg hroom, if_pos (show m.log2 + 1 = 24 by rw [hlog]), hexponent]

/-- A short mantissa is packed as it is. -/
lemma pack_short (hshort : m < 2 ^ 23) :
    UnpackedFloat.pack Format.binary32 (.finite s m (-149) hm) =
      packComponents Format.binary32 s 0#8 (BitVec.ofNat 23 m) := by
  obtain ⟨hbias, hbits, -⟩ := format_eq
  have hlog : m.log2 < 23 := (Nat.log2_lt (by omega)).mpr hshort
  unfold UnpackedFloat.pack
  simp only [hbias, hbits]
  rw [if_neg (by decide), if_neg (show ¬ m.log2 + 1 = 24 by omega)]

/-- Packing loses nothing of a canonical number below the infinities. -/
lemma unpack_pack_finite (h : Canonical m e) (he : e ≤ 104) :
    UnpackedFloat.unpack Format.binary32 (UnpackedFloat.pack Format.binary32 (.finite s m e hm)) =
      .finite s m e hm := by
  obtain ⟨hbias, -, -⟩ := format_eq
  have hle := h.le
  have hlt := h.lt
  by_cases hfull : 2 ^ 23 ≤ m
  · have hexponent : (BitVec.ofNat 8 (e + 150).toNat).toNat = (e + 150).toNat := by
      rw [BitVec.toNat_ofNat]
      omega
    have hmantissa : (1#1 ++ BitVec.ofNat 23 m).toNat = m := by
      rw [toNat_append_mantissa, BitVec.toNat_ofNat]
      omega
    have hfinite : BitVec.ofNat 8 (e + 150).toNat ≠ -1#8 := fun heq => by
      have hall : (-1#8).toNat = 255 := rfl
      rw [heq] at hexponent
      omega
    have hnormal : BitVec.ofNat 8 (e + 150).toNat ≠ 0#8 := fun heq => by
      have hnone : (0#8).toNat = 0 := rfl
      rw [heq] at hexponent
      omega
    rw [pack_full h he hfull]
    unfold UnpackedFloat.unpack
    simp only [unpackExponent_packComponents, unpackMantissa_packComponents,
      unpackSign_packComponents, if_neg hfinite, if_neg hnormal, hexponent, hmantissa, hbias]
    congr 1
    omega
  · obtain rfl : e = -149 := h.full.resolve_left hfull
    have hmantissa : (BitVec.ofNat 23 m).toNat = m := by
      rw [BitVec.toNat_ofNat]
      omega
    have hne : BitVec.ofNat 23 m ≠ 0#23 := fun heq => by
      have hnone : (0#23).toNat = 0 := rfl
      rw [heq] at hmantissa
      omega
    rw [pack_short (Nat.lt_of_not_le hfull)]
    unfold UnpackedFloat.unpack
    simp only [unpackExponent_packComponents, unpackMantissa_packComponents,
      unpackSign_packComponents, hne, dite_false, hmantissa, hbias]
    rfl

/-- The magnitude bits of a canonical number. -/
def pattern (m : Nat) (e : Int) : Nat := if m < 2 ^ 23 then m else (e + 149).toNat * 2 ^ 23 + m

/-- The bits of a packed number are its sign and its pattern, the infinities being the last
patterns. -/
lemma toNat_pack_finite (h : Canonical m e) :
    (UnpackedFloat.pack Format.binary32 (.finite s m e hm)).toNat =
      s.toBitVec.toNat * 2 ^ 31 + Min.min (pattern m e) 0x7f800000 := by
  have hle := h.le
  have hlt := h.lt
  unfold pattern
  by_cases hfull : 2 ^ 23 ≤ m
  · rw [if_neg (by omega)]
    by_cases he : e ≤ 104
    · rw [pack_full h he hfull, toNat_packComponents, BitVec.toNat_ofNat, BitVec.toNat_ofNat]
      omega
    · rw [pack_large (by omega), packedInfinity, toNat_packComponents]
      have hall : (-1#8).toNat = 255 := rfl
      have hnone : (0 : BitVec 23).toNat = 0 := rfl
      rw [hall, hnone]
      omega
  · obtain rfl : e = -149 := h.full.resolve_left hfull
    have hnone : (0#8).toNat = 0 := rfl
    rw [pack_short (by omega), toNat_packComponents, hnone, BitVec.toNat_ofNat, if_pos (by omega)]
    omega

end Pack

/-- Infinities are packed with their signs. -/
lemma unpack_pack_infinity (s : Sign) :
    (Float32.Model.pack (.infinity s)).unpack = .infinity s := by
  cases s <;> rfl

/-- What is packed with an exponent of finite numbers is a number. -/
lemma isNaN_unpack_packComponents (s : Sign) {e : BitVec 8} (he : e ≠ -1#8) (m : BitVec 23) :
    (UnpackedFloat.unpack Format.binary32 (packComponents Format.binary32 s e m)).isNaN =
      false := by
  unfold UnpackedFloat.unpack
  simp only [unpackExponent_packComponents, unpackMantissa_packComponents, if_neg he]
  split_ifs <;> rfl

/-- Packing makes no number into what is none. -/
lemma isNaN_pack {u : UnpackedFloat} (h : u.isNaN = false) :
    (Float32.ofModel (.pack u)).isNaN = false := by
  obtain ⟨hbias, hbits, -⟩ := format_eq
  change (UnpackedFloat.unpack Format.binary32 (UnpackedFloat.pack Format.binary32 u)).isNaN = false
  cases u with
  | notANumber => cases h
  | infinity s => cases s <;> rfl
  | zero s => cases s <;> rfl
  | finite s m e hm =>
    by_cases hlarge : 105 ≤ e
    · rw [pack_large hlarge]
      cases s <;> rfl
    · have hroom : ¬ 2 ^ 8 ≤ (e + ((127 : Nat) : Int) + ((23 : Nat) : Int)).toNat + 1 := by omega
      unfold UnpackedFloat.pack
      simp only [hbias, hbits]
      rw [if_neg hroom]
      split_ifs
      · refine isNaN_unpack_packComponents s (fun heq => ?_) _
        have hall := congrArg BitVec.toNat heq
        have hlast : (-1#8).toNat = 255 := rfl
        rw [BitVec.toNat_ofNat, hlast] at hall
        omega
      · exact isNaN_unpack_packComponents s (by decide) _

/-- A number of a bit pattern that a packed number has is that number. -/
lemma ofBits_eq {u : UnpackedFloat} {n : Nat}
    (h : n = (UnpackedFloat.pack Format.binary32 u).toNat) :
    Float32.ofBits (UInt32.ofNat n) = .ofModel (Float32.Model.pack u) := by
  have hbits : (UInt32.ofNat n).toBitVec = UnpackedFloat.pack Format.binary32 u := by
    refine BitVec.eq_of_toNat_eq ?_
    have hlt := (UnpackedFloat.pack Format.binary32 u).isLt
    change (UInt32.ofNat n).toNat = _
    rw [UInt32.toNat_ofNat', h]
    exact Nat.mod_eq_of_lt hlt
  change Float32.ofModel (Float32.Model.pack (UnpackedFloat.unpack Format.binary32 _)) = _
  rw [hbits]
  exact congrArg Float32.ofModel (pack_unpack (Float32.Model.pack u))

/-- A packed zero is a number of value zero. -/
lemma value_pack_zero (s : Sign) :
    (Float32.ofModel (.pack (.zero s))).isNaN = false ∧ value (.ofModel (.pack (.zero s))) = 0 := by
  have hparts : (Float32.ofModel (.pack (.zero s))).toModel.unpack = .zero s := unpack_pack_zero s
  rw [isNaN_eq, value, hparts]
  exact ⟨rfl, rfl⟩

/-- A canonical number that has been packed has its value, that of an infinity being the last. -/
lemma value_pack_finite {m : Nat} {e : Int} (h : Canonical m e) (hm : 0 < m) (s : Sign) :
    (Float32.ofModel (.pack (.finite s m e hm))).isNaN = false ∧
      value (.ofModel (.pack (.finite s m e hm))) =
        signed s (Min.min (m * 2 ^ e) (2 ^ (128 : ℤ))) := by
  by_cases he : e ≤ 104
  · have hparts : (Float32.ofModel (.pack (.finite s m e hm))).toModel.unpack = .finite s m e hm :=
      unpack_pack_finite h he
    have hrange : InRange (.finite s m e hm) := ⟨h, he⟩
    have hbelow := hrange.pos_and_lt.2
    rw [isNaN_eq, value, hparts, min_eq_left hbelow.le]
    exact ⟨rfl, rfl⟩
  · have hpack : Float32.Model.pack (.finite s m e hm) = .pack (.infinity s) := by
      unfold Float32.Model.pack
      congr 2
      exact pack_large (by omega)
    have hparts : (Float32.ofModel (.pack (.finite s m e hm))).toModel.unpack = .infinity s := by
      rw [hpack]
      exact unpack_pack_infinity s
    have habove : (2 : ℚ) ^ (128 : ℤ) ≤ m * 2 ^ e :=
      (zpow_le_zpow_right₀ (by norm_num) (by omega)).trans (h.two_zpow_le (by omega))
    rw [isNaN_eq, value, hparts, min_eq_right habove]
    exact ⟨rfl, rfl⟩

/-! ## The parts of a number -/

/-- Zero has no sign. -/
lemma signed_zero (s : Sign) : signed s 0 = 0 := by
  cases s
  · exact neg_zero
  · rfl

/-- The sign that a sign bit stands for. -/
def signOf (negative : Bool) : Sign := if negative then .negative else .positive

/-- The fraction that the parts of a number make. -/
lemma ratio_eq (p : BinaryParts) :
    0 < p.ratio.2 ∧ (p.ratio.1 : ℚ) / p.ratio.2 = p.mantissa * 2 ^ p.exponent := by
  obtain ⟨negative, m, e⟩ := p
  cases e with
  | ofNat n =>
    have hratio : (BinaryParts.mk negative m (.ofNat n)).ratio = (m * 2 ^ n, 1) := rfl
    rw [hratio]
    refine ⟨Nat.one_pos, ?_⟩
    simp
  | negSucc n =>
    have hratio : (BinaryParts.mk negative m (.negSucc n)).ratio = (m, 2 ^ (n + 1)) := rfl
    rw [hratio]
    refine ⟨Nat.two_pow_pos _, ?_⟩
    rw [zpow_negSucc]
    push_cast
    rw [div_eq_mul_inv]

/-- The bit pattern of a number. -/
def bitPattern (x : Float32) : BitVec Format.binary32.numBits := x.toModel.toBits.toBitVec

/-- The sign of a number is told by its highest bit. -/
lemma signOf_signBit (x : Float32) :
    signOf (signBit x) = Sign.ofBitVec (unpackSign (bitPattern x)) := by
  have hbit := toNat_unpackSign (bitPattern x)
  have hlt : (bitPattern x).toNat < 2 ^ 32 := (bitPattern x).isLt
  have hdiv : x.toBits.toNat / 0x80000000 = (unpackSign (bitPattern x)).toNat := by
    change (bitPattern x).toNat / 0x80000000 = _
    omega
  unfold signBit
  rw [hdiv]
  rcases BitVec.eq_zero_or_eq_one (unpackSign (bitPattern x)) with h | h <;> rw [h] <;> rfl

/-- The parts of a number are read off the fields of its bit pattern. -/
lemma parts?_eq (x : Float32) :
    parts? x =
      if unpackExponent (bitPattern x) = -1#8 then none
      else if unpackExponent (bitPattern x) = 0#8 then
        some ⟨signBit x, (unpackMantissa (bitPattern x)).toNat, -149⟩
      else
        some ⟨signBit x, (1#1 ++ unpackMantissa (bitPattern x)).toNat,
          (unpackExponent (bitPattern x)).toNat - 150⟩ := by
  have hexponent : x.toBits.toNat / 0x800000 % 0x100 = (unpackExponent (bitPattern x)).toNat :=
    (toNat_unpackExponent _).symm
  have hmantissa : x.toBits.toNat % 0x800000 = (unpackMantissa (bitPattern x)).toNat :=
    (toNat_unpackMantissa _).symm
  have hall : unpackExponent (bitPattern x) = -1#8 ↔ (unpackExponent (bitPattern x)).toNat = 255 :=
    (BitVec.toNat_inj (y := -1#8)).symm
  have hnone : unpackExponent (bitPattern x) = 0#8 ↔ (unpackExponent (bitPattern x)).toNat = 0 :=
    (BitVec.toNat_inj (y := 0#8)).symm
  unfold parts?
  dsimp only
  simp only [hexponent, hmantissa, hall, hnone, toNat_append_mantissa]
  rfl

/-- The parts of a finite number have its value. -/
theorem parts?_of_isFinite {x : Float32} (h : x.isFinite = true) :
    ∃ p, parts? x = some p ∧
      value x = signed (signOf p.negative) (p.mantissa * 2 ^ p.exponent) := by
  obtain ⟨hbias, -, -⟩ := format_eq
  change (UnpackedFloat.unpack Format.binary32 (bitPattern x)).isFinite = true at h
  change ∃ p, _ ∧ partsValue (UnpackedFloat.unpack Format.binary32 (bitPattern x)) = _
  rw [parts?_eq]
  unfold UnpackedFloat.unpack at h ⊢
  dsimp only at h ⊢
  rw [← signOf_signBit] at h ⊢
  split_ifs at h ⊢ with hexponent hmantissa hzero hmantissa
  · cases h
  · cases h
  · refine ⟨_, rfl, ?_⟩
    have hnone : (0#23).toNat = 0 := rfl
    rw [hmantissa, hnone, Nat.cast_zero, MulZeroClass.zero_mul, signed_zero]
    rfl
  · refine ⟨_, rfl, ?_⟩
    simp only [partsValue, hzero, hbias]
    rfl
  · refine ⟨_, rfl, ?_⟩
    simp only [partsValue, hbias]
    rfl

/-- What is not finite has no parts. -/
lemma parts?_of_not_isFinite {x : Float32} (h : x.isFinite = false) : parts? x = none := by
  change (UnpackedFloat.unpack Format.binary32 (bitPattern x)).isFinite = false at h
  rw [parts?_eq]
  unfold UnpackedFloat.unpack at h
  dsimp only at h
  split_ifs at h ⊢ with hexponent hmantissa hzero hmantissa
  · rfl
  · rfl
  · cases h
  · cases h
  · cases h

end Binary32

end SvgDisplayList
