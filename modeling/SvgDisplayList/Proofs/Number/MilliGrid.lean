import SvgDisplayList.Proofs.Number.Snap

/-!
# The grid of thousandths in fixed point

A thousandth of a user unit is no whole number of fixed-point units, but it is so many of them that
the way from a number of thousandths to fixed point and back loses nothing: it ends at the number it
started from, held within the fixed-point range (`FixedPoint.toInt_toMilli_ofMilli`).  The other way
round, a fixed-point number is moved by at most half a thousandth and half a fixed-point unit
(`FixedPoint.abs_units_sub_le`), and what has been moved once stays
(`FixedPoint.toMilli_ofMilli_toMilli`).  Both directions keep the order.

The products and sums of both directions are far longer than sixty-four bits, but not longer than
one hundred and twenty-eight: carried out with every intermediate result checked for its length
(`FixedPoint.ofMilli?`, `FixedPoint.toMilli?`), both come to the same results, and no check fails.
-/

namespace SvgDisplayList

/-! ## Intermediate results -/

/-- An integer, if it is one of one hundred and twenty-eight bits. -/
def wide? (i : Int) : Option Int :=
  if -0x80000000000000000000000000000000 ≤ i ∧ i < 0x80000000000000000000000000000000 then some i
  else none

/-- The rounded quotient, with every intermediate result checked. -/
def divRoundAway? (i : Int) (den : Nat) : Option Int := do
  let half ← wide? (if 0 ≤ i then (den / 2 : Nat) else -(den / 2 : Nat))
  let sum ← wide? (i + half)
  wide? (sum.tdiv den)

/-- A dividend and a divisor that are not too long together make no intermediate result that is. -/
lemma divRoundAway?_eq {i : Int} {den : Nat}
    (h : i.natAbs + den < 0x80000000000000000000000000000000) :
    divRoundAway? i den = some (divRoundAway i den) := by
  have hquotient (j : Int) : (j.tdiv den).natAbs ≤ j.natAbs := Int.natAbs_tdiv_le_natAbs j den
  have hwide {j : Int} (hj : j.natAbs < 0x80000000000000000000000000000000) :
      wide? j = some j := if_pos (by omega)
  unfold divRoundAway? divRoundAway
  split_ifs with hi
  · have hsum := hquotient (i + (den / 2 : Nat))
    rw [hwide (by omega), Option.bind_eq_bind, Option.bind_some, hwide (by omega),
      Option.bind_some, hwide (by omega)]
  · have hsum := hquotient (i + -(den / 2 : Nat))
    rw [hwide (by omega), Option.bind_eq_bind, Option.bind_some, hwide (by omega),
      Option.bind_some, hwide (by omega)]
    rfl

namespace FixedPoint

/-- The fixed-point number nearest to a number of thousandths, with every intermediate result
checked. -/
def ofMilli? (milli : Int64) : Option FixedPoint := do
  let scaled ← wide? (milli.toInt * 0x100000000)
  let bits ← divRoundAway? scaled 1000
  return ⟨saturate bits⟩

/-- The number of thousandths nearest to a fixed-point number, with every intermediate result
checked. -/
def toMilli? (p : FixedPoint) : Option Int64 := do
  let scaled ← wide? (p.bits.toInt * 1000)
  let milli ← divRoundAway? scaled 0x100000000
  return saturate milli

/-- No intermediate result is too long on the way to fixed point. -/
lemma ofMilli?_eq (milli : Int64) : ofMilli? milli = some (ofMilli milli) := by
  have hlower := milli.le_toInt
  have hupper := milli.toInt_lt
  have hscaled : wide? (milli.toInt * 0x100000000) = some (milli.toInt * 0x100000000) :=
    if_pos (by omega)
  unfold ofMilli?
  rw [hscaled, Option.bind_eq_bind, Option.bind_some, divRoundAway?_eq (by omega)]
  rfl

/-- No intermediate result is too long on the way back. -/
lemma toMilli?_eq (p : FixedPoint) : p.toMilli? = some p.toMilli := by
  have hlower := p.bits.le_toInt
  have hupper := p.bits.toInt_lt
  have hscaled : wide? (p.bits.toInt * 1000) = some (p.bits.toInt * 1000) := if_pos (by omega)
  unfold toMilli?
  rw [hscaled, Option.bind_eq_bind, Option.bind_some, divRoundAway?_eq (by omega)]
  rfl

/-! ## There and back -/

/-- From thousandths to fixed point and back, a number is held within the fixed-point range. -/
lemma toInt_toMilli_ofMilli (milli : Int64) :
    (ofMilli milli).toMilli.toInt = max (-2147483648000) (min 2147483648000 milli.toInt) := by
  have hlower := milli.le_toInt
  have hupper := milli.toInt_lt
  rw [toInt_toMilli, toInt_bits_ofMilli]
  split_ifs <;> omega

/-- More thousandths make no smaller number. -/
lemma ofMilli_mono {m n : Int64} (h : m ≤ n) : (ofMilli m).bits ≤ (ofMilli n).bits := by
  rw [Int64.le_iff_toInt_le] at h ⊢
  rw [toInt_bits_ofMilli, toInt_bits_ofMilli]
  split_ifs <;> omega

/-- A greater number does not make fewer thousandths. -/
lemma toMilli_mono {p r : FixedPoint} (h : p.bits ≤ r.bits) : p.toMilli ≤ r.toMilli := by
  rw [Int64.le_iff_toInt_le] at h ⊢
  rw [toInt_toMilli, toInt_toMilli]
  split_ifs <;> omega

/-- A fixed-point number in user units. -/
def units (p : FixedPoint) : ℚ := p.bits.toInt / 2 ^ 32

/-- From fixed point to thousandths and back, a number is moved by at most half a thousandth and
half a fixed-point unit. -/
lemma abs_units_sub_le (p : FixedPoint) :
    |(ofMilli p.toMilli).units - p.units| ≤ 1 / 1000 / 2 + 1 / 2 ^ 32 / 2 := by
  have hlower := p.bits.le_toInt
  have hupper := p.bits.toInt_lt
  -- in fixed-point units, by integers
  have hbits : -4294968296 ≤ 2000 * ((ofMilli p.toMilli).bits.toInt - p.bits.toInt) ∧
      2000 * ((ofMilli p.toMilli).bits.toInt - p.bits.toInt) ≤ 4294968296 := by
    rw [toInt_bits_ofMilli, toInt_toMilli]
    split_ifs <;> omega
  obtain ⟨hbelow, habove⟩ := hbits
  have hbelow' : (-4294968296 : ℚ) ≤
      2000 * ((ofMilli p.toMilli).bits.toInt - p.bits.toInt) := by exact_mod_cast hbelow
  have habove' : (2000 : ℚ) * ((ofMilli p.toMilli).bits.toInt - p.bits.toInt) ≤ 4294968296 := by
    exact_mod_cast habove
  unfold units
  rw [← sub_div, abs_div, abs_of_pos (by positivity : (0 : ℚ) < 2 ^ 32),
    div_le_iff₀ (by positivity), abs_le]
  constructor <;> linarith

/-- Thousandths in the fixed-point range come back. -/
lemma toMilli_ofMilli_toMilli (p : FixedPoint) : (ofMilli p.toMilli).toMilli = p.toMilli := by
  have hlower := p.bits.le_toInt
  have hupper := p.bits.toInt_lt
  refine Int64.toInt_inj.mp ?_
  rw [toInt_toMilli_ofMilli, toInt_toMilli]
  split_ifs <;> omega

/-- Thousandths and fixed-point numbers are turned into each other on the milli grid.

A number of thousandths comes back from fixed point, held within the fixed-point range.  Both
directions keep the order.  A fixed-point number is moved by at most half a thousandth and half a
fixed-point unit, and moving it again changes nothing.  And no intermediate result of either
direction is longer than one hundred and twenty-eight bits. -/
theorem milli_grid (m n : Int64) (p r : FixedPoint) :
    (ofMilli m).toMilli.toInt = max (-2147483648000) (min 2147483648000 m.toInt) ∧
    (m ≤ n → (ofMilli m).bits ≤ (ofMilli n).bits) ∧
    (p.bits ≤ r.bits → p.toMilli ≤ r.toMilli) ∧
    |(ofMilli p.toMilli).units - p.units| ≤ 1 / 1000 / 2 + 1 / 2 ^ 32 / 2 ∧
    ofMilli (ofMilli p.toMilli).toMilli = ofMilli p.toMilli ∧
    ofMilli? m = some (ofMilli m) ∧ p.toMilli? = some p.toMilli := by
  refine ⟨toInt_toMilli_ofMilli m, ofMilli_mono, toMilli_mono, p.abs_units_sub_le, ?_,
    ofMilli?_eq m, p.toMilli?_eq⟩
  rw [toMilli_ofMilli_toMilli]

/-- At the upper end of the range a thousandth more is held at it, and the last fixed-point number
that is nearer to a thousandth less is moved there. -/
theorem milli_grid_upperEnd :
    let last : FixedPoint := ⟨0x7fffffffffffffff⟩
    let before : FixedPoint := ⟨0x7fffffffffdf3b64⟩
    (ofMilli 2147483648001).toMilli.toInt = 2147483648000 ∧
    (ofMilli 2147483647999).bits ≤ (ofMilli 2147483648001).bits ∧
    before.toMilli ≤ last.toMilli ∧
    |(ofMilli before.toMilli).units - before.units| ≤ 1 / 1000 / 2 + 1 / 2 ^ 32 / 2 ∧
    ofMilli (ofMilli before.toMilli).toMilli = ofMilli before.toMilli ∧
    ofMilli? 2147483648001 = some (ofMilli 2147483648001) ∧ last.toMilli? = some last.toMilli := by
  intro last before
  obtain ⟨hclamp, -, htoMilli, hdistance, hagain, hchecked, -⟩ :=
    milli_grid 2147483648001 2147483648001 before last
  obtain ⟨-, hofMilli, -, -, -, -, hchecked'⟩ :=
    milli_grid 2147483647999 2147483648001 last last
  exact ⟨hclamp, hofMilli (by decide), htoMilli (by decide), hdistance, hagain, hchecked,
    hchecked'⟩

end FixedPoint

end SvgDisplayList
