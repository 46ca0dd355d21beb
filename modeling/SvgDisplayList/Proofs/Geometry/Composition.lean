import SvgDisplayList.Geometry.Matrix
import SvgDisplayList.Proofs.Number.Arithmetic

/-!
# Products of matrices as composites of maps

Products and images are computed in single precision, where neither sums nor products obey the laws
of rings.  But integers up to `2 ^ 24` are values of numbers, so that a computation with integers is
exact as long as no intermediate result is larger (`Binary32.Holds`).  What is computed from
matrices that hold integers (`Matrix.Holds`) is then what the matrices of these integers make
(`WholeMatrix`), and for them the laws of composition are laws of rings.

Each product makes the bounds of the entries grow (`WholeMatrix.Within.mul`).  From entries up to
128 there is room for two products, or for a product and an image, which is what the laws need
(`Matrix.apply_mul_of_isSmall`, `Matrix.mul_assoc_of_isSmall`).
-/

namespace SvgDisplayList

namespace Binary32

/-! ## Numbers that hold integers -/

/-- A number holds an integer if that is its value. -/
structure Holds (x : Float32) (i : ℤ) : Prop where
  finite : x.isFinite = true
  value_eq : value x = i

/-- Integers up to the length of a mantissa are values of numbers. -/
lemma isValue_intCast {i : ℤ} (hi : |i| ≤ 2 ^ 24) : IsValue i := by
  have hnat {n : Nat} (hn : n ≤ 2 ^ 24) : IsValue n := by
    have hcast : (n : ℚ) ≤ 2 ^ 24 := by exact_mod_cast hn
    have hvalue : IsValue (n * 2 ^ (0 : ℤ)) :=
      isValue_mul_zpow hn (by decide) (by rw [zpow_zero, mul_one]; exact hcast.trans (by norm_num))
    rwa [zpow_zero, mul_one] at hvalue
  obtain ⟨n, rfl | rfl⟩ := Int.eq_nat_or_neg i
  · exact_mod_cast hnat (by simpa using hi)
  · push_cast
    exact (hnat (by simpa using hi)).neg

namespace Holds

variable {x y z w : Float32} {i j k l : ℤ}

/-- An exact result that is an integer is held, if it is not too large. -/
lemma of_rounds (h : x.isNaN = false ∧ Rounds i (value x)) (hi : |i| ≤ 2 ^ 24) : Holds x i := by
  obtain ⟨hnan, hrounds⟩ := h
  have hvalue := hrounds.eq_of_isValue (isValue_intCast hi)
  refine ⟨isFinite_iff.mpr ⟨hnan, ?_⟩, hvalue⟩
  have hcast : |(i : ℚ)| ≤ 2 ^ 24 := by exact_mod_cast hi
  rw [hvalue]
  exact hcast.trans_lt (by norm_num)

/-- Sums of integers are exact. -/
theorem add (hx : Holds x i) (hy : Holds y j) (h : |i + j| ≤ 2 ^ 24) : Holds (x + y) (i + j) := by
  have hrounds := rounds_add hx.finite hy.finite
  rw [hx.value_eq, hy.value_eq, ← Int.cast_add] at hrounds
  exact of_rounds hrounds h

/-- Products of integers are exact. -/
theorem mul (hx : Holds x i) (hy : Holds y j) (h : |i * j| ≤ 2 ^ 24) : Holds (x * y) (i * j) := by
  have hrounds := rounds_mul hx.finite hy.finite
  rw [hx.value_eq, hy.value_eq, ← Int.cast_mul] at hrounds
  exact of_rounds hrounds h

/-- Numbers that hold the same integer are equal. -/
lemma beq (hx : Holds x i) (hy : Holds y i) : (x == y) = true :=
  beq_iff.mpr ⟨not_isNaN_of_isFinite hx.finite, not_isNaN_of_isFinite hy.finite,
    hx.value_eq.trans hy.value_eq.symm⟩

/-- A number that is equal to one that holds an integer holds it. -/
lemma of_beq (h : (x == y) = true) (hy : Holds y i) : Holds x i :=
  ⟨(isFinite_congr h).mpr hy.finite, (beq_iff.mp h).2.2.trans hy.value_eq⟩

/-- The row of a product is exact. -/
lemma row {b c : ℤ} (hx : Holds x i) (hy : Holds y j) (hz : Holds z k) (hw : Holds w l)
    (hi : |i| ≤ b) (hk : |k| ≤ b) (hj : |j| ≤ c) (hl : |l| ≤ c) (hbound : 2 * (b * c) ≤ 2 ^ 24) :
    Holds (x * y + z * w) (i * j + k * l) ∧ |i * j + k * l| ≤ 2 * (b * c) := by
  have hb : 0 ≤ b := (abs_nonneg i).trans hi
  have hc : 0 ≤ c := (abs_nonneg j).trans hj
  have hbc : 0 ≤ b * c := mul_nonneg hb hc
  have hleft : |i * j| ≤ b * c := by
    rw [abs_mul]
    exact mul_le_mul hi hj (abs_nonneg j) hb
  have hright : |k * l| ≤ b * c := by
    rw [abs_mul]
    exact mul_le_mul hk hl (abs_nonneg l) hb
  have hsum : |i * j + k * l| ≤ 2 * (b * c) := (abs_add_le _ _).trans (by omega)
  exact ⟨(hx.mul hy (by omega)).add (hz.mul hw (by omega)) (hsum.trans hbound), hsum⟩

/-- The row of a product with a number added is exact. -/
lemma shiftedRow {b c s : ℤ} {v : Float32} {n : ℤ} (hx : Holds x i) (hy : Holds y j)
    (hz : Holds z k) (hw : Holds w l) (hv : Holds v n) (hi : |i| ≤ b) (hk : |k| ≤ b) (hj : |j| ≤ c)
    (hl : |l| ≤ c) (hn : |n| ≤ s) (hbound : 2 * (b * c) + s ≤ 2 ^ 24) :
    Holds (x * y + z * w + v) (i * j + k * l + n) ∧ |i * j + k * l + n| ≤ 2 * (b * c) + s := by
  have hs : 0 ≤ s := (abs_nonneg n).trans hn
  obtain ⟨hrow, hle⟩ := hx.row hy hz hw hi hk hj hl (by omega)
  have hsum : |i * j + k * l + n| ≤ 2 * (b * c) + s := (abs_add_le _ _).trans (by omega)
  exact ⟨hrow.add hv (hsum.trans hbound), hsum⟩

end Holds

end Binary32

open Binary32

/-! ## Matrices of integers -/

/-- An affine map of the plane that takes points with integer coordinates to such points. -/
structure WholeMatrix where
  a : ℤ
  b : ℤ
  c : ℤ
  d : ℤ
  e : ℤ
  f : ℤ

namespace WholeMatrix

def identity : WholeMatrix := ⟨1, 0, 0, 1, 0, 0⟩

/-- The composite of two maps; the right one is applied first. -/
def mul (l r : WholeMatrix) : WholeMatrix where
  a := l.a * r.a + l.c * r.b
  b := l.b * r.a + l.d * r.b
  c := l.a * r.c + l.c * r.d
  d := l.b * r.c + l.d * r.d
  e := l.a * r.e + l.c * r.f + l.e
  f := l.b * r.e + l.d * r.f + l.f

/-- The image of a point. -/
def apply (m : WholeMatrix) (p : ℤ × ℤ) : ℤ × ℤ :=
  (m.a * p.1 + m.c * p.2 + m.e, m.b * p.1 + m.d * p.2 + m.f)

/-- A product maps points as its factors do one after the other. -/
lemma apply_mul (m n : WholeMatrix) (p : ℤ × ℤ) : (m.mul n).apply p = m.apply (n.apply p) := by
  unfold apply mul
  refine Prod.ext ?_ ?_ <;> dsimp only <;> ring

/-- Products are associative. -/
lemma mul_assoc (l m n : WholeMatrix) : (l.mul m).mul n = l.mul (m.mul n) := by
  unfold mul
  congr 1 <;> ring

/-- The identity is neutral on the left. -/
lemma identity_mul (m : WholeMatrix) : identity.mul m = m := by
  unfold mul identity
  simp

/-- The identity is neutral on the right. -/
lemma mul_identity (m : WholeMatrix) : m.mul identity = m := by
  unfold mul identity
  simp

/-- Bounds on the linear part of a map and on its shift. -/
structure Within (m : WholeMatrix) (linear shift : ℤ) : Prop where
  a : |m.a| ≤ linear
  b : |m.b| ≤ linear
  c : |m.c| ≤ linear
  d : |m.d| ≤ linear
  e : |m.e| ≤ shift
  f : |m.f| ≤ shift

/-- Bounds on the identity. -/
lemma within_identity : identity.Within 1 0 := by constructor <;> decide

end WholeMatrix

/-- A point holds integer coordinates. -/
structure Point.Holds (p : Point) (q : ℤ × ℤ) : Prop where
  x : Binary32.Holds p.x q.1
  y : Binary32.Holds p.y q.2

/-- Points that hold the same coordinates are equal. -/
lemma Point.Holds.beq {p p' : Point} {q : ℤ × ℤ} (h : p.Holds q) (h' : p'.Holds q) :
    (p == p') = true := by
  change (p.x == p'.x && p.y == p'.y) = true
  rw [h.x.beq h'.x, h.y.beq h'.y]
  rfl

namespace Matrix

/-- A matrix holds the entries of a matrix of integers. -/
structure Holds (m : Matrix) (k : WholeMatrix) : Prop where
  a : Binary32.Holds m.a k.a
  b : Binary32.Holds m.b k.b
  c : Binary32.Holds m.c k.c
  d : Binary32.Holds m.d k.d
  e : Binary32.Holds m.e k.e
  f : Binary32.Holds m.f k.f

/-- The identity holds the identity. -/
lemma holds_identity : identity.Holds .identity := by
  have hzero : Binary32.Holds 0 0 := ⟨by decide, by rw [value_zero, Int.cast_zero]⟩
  have hone : Binary32.Holds 1 1 := ⟨by decide, by rw [value_one, Int.cast_one]⟩
  exact ⟨hone, hzero, hzero, hone, hzero, hzero⟩

namespace Holds

variable {m m' : Matrix} {k k' : WholeMatrix} {linear linear' shift shift' : ℤ}

/-- Matrices that hold the same entries are equal. -/
lemma beq (h : m.Holds k) (h' : m'.Holds k) : (m == m') = true := by
  change (m.a == m'.a && (m.b == m'.b && (m.c == m'.c && (m.d == m'.d && (m.e == m'.e &&
    m.f == m'.f))))) = true
  rw [h.a.beq h'.a, h.b.beq h'.b, h.c.beq h'.c, h.d.beq h'.d, h.e.beq h'.e, h.f.beq h'.f]
  rfl

/-- A product is exact as long as its entries are not too large. -/
theorem mul (h : m.Holds k) (h' : m'.Holds k') (hk : k.Within linear shift)
    (hk' : k'.Within linear' shift') (hlinear : 2 * (linear * linear') ≤ 2 ^ 24)
    (hshift : 2 * (linear * shift') + shift ≤ 2 ^ 24) :
    (m.mul m').Holds (k.mul k') ∧
      (k.mul k').Within (2 * (linear * linear')) (2 * (linear * shift') + shift) := by
  obtain ⟨ha, hale⟩ := h.a.row h'.a h.c h'.b hk.a hk.c hk'.a hk'.b hlinear
  obtain ⟨hb, hble⟩ := h.b.row h'.a h.d h'.b hk.b hk.d hk'.a hk'.b hlinear
  obtain ⟨hc, hcle⟩ := h.a.row h'.c h.c h'.d hk.a hk.c hk'.c hk'.d hlinear
  obtain ⟨hd, hdle⟩ := h.b.row h'.c h.d h'.d hk.b hk.d hk'.c hk'.d hlinear
  obtain ⟨he, hele⟩ := h.a.shiftedRow h'.e h.c h'.f h.e hk.a hk.c hk'.e hk'.f hk.e hshift
  obtain ⟨hf, hfle⟩ := h.b.shiftedRow h'.e h.d h'.f h.f hk.b hk.d hk'.e hk'.f hk.f hshift
  exact ⟨⟨ha, hb, hc, hd, he, hf⟩, ⟨hale, hble, hcle, hdle, hele, hfle⟩⟩

/-- The image of a point is exact as long as its coordinates are not too large. -/
theorem apply {p : Point} {q : ℤ × ℤ} {size : ℤ} (h : m.Holds k) (hp : p.Holds q)
    (hk : k.Within linear shift) (hx : |q.1| ≤ size) (hy : |q.2| ≤ size)
    (hbound : 2 * (linear * size) + shift ≤ 2 ^ 24) :
    (m.apply p).Holds (k.apply q) ∧ |(k.apply q).1| ≤ 2 * (linear * size) + shift ∧
      |(k.apply q).2| ≤ 2 * (linear * size) + shift := by
  obtain ⟨hfirst, hfirstLe⟩ := h.a.shiftedRow hp.x h.c hp.y h.e hk.a hk.c hx hy hk.e hbound
  obtain ⟨hsecond, hsecondLe⟩ := h.b.shiftedRow hp.x h.d hp.y h.f hk.b hk.d hx hy hk.f hbound
  exact ⟨⟨hfirst, hsecond⟩, hfirstLe, hsecondLe⟩

end Holds

end Matrix

/-! ## Small matrices and points -/

/-- A number is an integer of magnitude at most 128. -/
def Binary32.IsSmallInteger (x : Float32) : Prop :=
  x.isFinite = true ∧ ∃ i : ℤ, |i| ≤ 128 ∧ value x = i

/-- The coordinates of a point are integers of magnitude at most 128. -/
structure Point.IsSmall (p : Point) : Prop where
  x : IsSmallInteger p.x
  y : IsSmallInteger p.y

/-- A small point holds its coordinates. -/
lemma Point.IsSmall.exists_holds {p : Point} (h : p.IsSmall) :
    ∃ q, p.Holds q ∧ |q.1| ≤ 128 ∧ |q.2| ≤ 128 := by
  obtain ⟨⟨hx, i, hi, hxi⟩, ⟨hy, j, hj, hyj⟩⟩ := h
  exact ⟨(i, j), ⟨⟨hx, hxi⟩, ⟨hy, hyj⟩⟩, hi, hj⟩

namespace Matrix

/-- The entries of a matrix are integers of magnitude at most 128. -/
structure IsSmall (m : Matrix) : Prop where
  a : IsSmallInteger m.a
  b : IsSmallInteger m.b
  c : IsSmallInteger m.c
  d : IsSmallInteger m.d
  e : IsSmallInteger m.e
  f : IsSmallInteger m.f

/-- A small matrix holds its entries. -/
lemma IsSmall.exists_holds {m : Matrix} (h : m.IsSmall) : ∃ k, m.Holds k ∧ k.Within 128 128 := by
  obtain ⟨⟨ha, a, hale, hav⟩, ⟨hb, b, hble, hbv⟩, ⟨hc, c, hcle, hcv⟩, ⟨hd, d, hdle, hdv⟩,
    ⟨he, e, hele, hev⟩, ⟨hf, f, hfle, hfv⟩⟩ := h
  exact ⟨⟨a, b, c, d, e, f⟩, ⟨⟨ha, hav⟩, ⟨hb, hbv⟩, ⟨hc, hcv⟩, ⟨hd, hdv⟩, ⟨he, hev⟩, ⟨hf, hfv⟩⟩,
    ⟨hale, hble, hcle, hdle, hele, hfle⟩⟩

variable {l m n : Matrix} {p : Point}

/-- A map takes a point to where it lies exactly: nothing has been rounded. -/
structure Takes (m : Matrix) (p q : Point) : Prop where
  finite : q.x.isFinite = true ∧ q.y.isFinite = true
  x : value q.x = value m.a * value p.x + value m.c * value p.y + value m.e
  y : value q.y = value m.b * value p.x + value m.d * value p.y + value m.f

/-- The image of a small point under a small matrix is exact. -/
theorem takes_of_isSmall (hm : m.IsSmall) (hp : p.IsSmall) : m.Takes p (m.apply p) := by
  obtain ⟨k, hk, hkle⟩ := hm.exists_holds
  obtain ⟨q, hq, hx, hy⟩ := hp.exists_holds
  obtain ⟨himage, -⟩ := hk.apply hq hkle hx hy (by decide)
  refine ⟨⟨himage.x.finite, himage.y.finite⟩, ?_, ?_⟩
  · rw [himage.x.value_eq, hk.a.value_eq, hk.c.value_eq, hk.e.value_eq, hq.x.value_eq,
      hq.y.value_eq]
    norm_cast
  · rw [himage.y.value_eq, hk.b.value_eq, hk.d.value_eq, hk.f.value_eq, hq.x.value_eq,
      hq.y.value_eq]
    norm_cast

/-- The product of small matrices maps small points as its factors do one after the other. -/
theorem apply_mul_of_isSmall (hm : m.IsSmall) (hn : n.IsSmall) (hp : p.IsSmall) :
    ((m.mul n).apply p == m.apply (n.apply p)) = true := by
  obtain ⟨k, hk, hkle⟩ := hm.exists_holds
  obtain ⟨k', hk', hkle'⟩ := hn.exists_holds
  obtain ⟨q, hq, hx, hy⟩ := hp.exists_holds
  obtain ⟨hproduct, hproductLe⟩ := hk.mul hk' hkle hkle' (by decide) (by decide)
  obtain ⟨himage, himageX, himageY⟩ := hk'.apply hq hkle' hx hy (by decide)
  have hleft := (hproduct.apply hq hproductLe hx hy (by decide)).1
  have hright := (hk.apply himage hkle himageX himageY (by decide)).1
  rw [WholeMatrix.apply_mul] at hleft
  exact hleft.beq hright

/-- The product of three small matrices does not depend on the order of the multiplications. -/
theorem mul_assoc_of_isSmall (hl : l.IsSmall) (hm : m.IsSmall) (hn : n.IsSmall) :
    ((l.mul m).mul n == l.mul (m.mul n)) = true := by
  obtain ⟨k, hk, hkle⟩ := hl.exists_holds
  obtain ⟨k', hk', hkle'⟩ := hm.exists_holds
  obtain ⟨k'', hk'', hkle''⟩ := hn.exists_holds
  obtain ⟨hleft, hleftLe⟩ := hk.mul hk' hkle hkle' (by decide) (by decide)
  obtain ⟨hright, hrightLe⟩ := hk'.mul hk'' hkle' hkle'' (by decide) (by decide)
  have hleft := (hleft.mul hk'' hleftLe hkle'' (by decide) (by decide)).1
  have hright := (hk.mul hright hkle hrightLe (by decide) (by decide)).1
  rw [WholeMatrix.mul_assoc] at hleft
  exact hleft.beq hright

/-- The identity changes no small matrix, on either side. -/
theorem identity_neutral_of_isSmall (hm : m.IsSmall) :
    (identity.mul m == m) = true ∧ (m.mul identity == m) = true := by
  obtain ⟨k, hk, hkle⟩ := hm.exists_holds
  have hleft := (holds_identity.mul hk WholeMatrix.within_identity hkle (by decide) (by decide)).1
  have hright := (hk.mul holds_identity hkle WholeMatrix.within_identity (by decide) (by decide)).1
  rw [WholeMatrix.identity_mul] at hleft
  rw [WholeMatrix.mul_identity] at hright
  exact ⟨hleft.beq hk, hright.beq hk⟩

end Matrix

end SvgDisplayList
