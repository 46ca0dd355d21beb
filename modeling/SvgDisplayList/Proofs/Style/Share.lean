import SvgDisplayList.Proofs.Geometry.Move
import SvgDisplayList.Proofs.Number.Rounding
import SvgDisplayList.Style.Length
import SvgDisplayList.Style.Paint

/-!
# Shares

Opacities are shares between nothing and all (`IsShare`).  What is not a number is no share, so that
every opacity that is read, multiplied or held between its bounds has to be shown to be a number: a
numeral is finite, a hundredth of it is a number, and a product of shares is rounded between zero
and its first factor (`IsShare.mul`, `IsShare.mul_le`).
-/

namespace SvgDisplayList

open Binary32

/-- A share between nothing and all. -/
def IsShare (x : Float32) : Prop := 0 ≤ x ∧ x ≤ 1

/-- A share is a number with a value between zero and one. -/
lemma isShare_iff {x : Float32} : IsShare x ↔ x.isNaN = false ∧ 0 ≤ value x ∧ value x ≤ 1 := by
  unfold IsShare
  rw [le_iff, le_iff, value_zero, value_one]
  exact ⟨fun h => ⟨h.2.1, h.1.2.2, h.2.2.2⟩, fun h => ⟨⟨rfl, h.1, h.2.1⟩, h.1, rfl, h.2.2⟩⟩

/-- All is a share. -/
lemma isShare_one : IsShare 1 := ⟨by decide, by decide⟩

/-- A number held between nothing and all is a share. -/
lemma isShare_clamp {x : Float32} (h : x.isNaN = false) : IsShare (clamp x 0 1) :=
  clamp_mem h (by decide)

namespace IsShare

variable {x y : Float32}

/-- A share is finite. -/
lemma isFinite (h : IsShare x) : x.isFinite = true := by
  obtain ⟨hnan, hlower, hupper⟩ := isShare_iff.mp h
  refine isFinite_iff.mpr ⟨hnan, ?_⟩
  rw [abs_of_nonneg hlower]
  exact hupper.trans_lt (by norm_num)

/-- A share of a share is rounded to no more than the share itself. -/
lemma mul_bounds (hx : IsShare x) (hy : IsShare y) :
    (x * y).isNaN = false ∧ 0 ≤ value (x * y) ∧ value (x * y) ≤ value x := by
  obtain ⟨-, hlowerX, hupperX⟩ := isShare_iff.mp hx
  obtain ⟨-, hlowerY, hupperY⟩ := isShare_iff.mp hy
  obtain ⟨hnan, hrounds⟩ := rounds_mul hx.isFinite hy.isFinite
  refine ⟨hnan, hrounds.ge_of_ge isValue_zero (mul_nonneg hlowerX hlowerY), ?_⟩
  exact hrounds.le_of_le (isValue_value x) (mul_le_of_le_one_right hlowerX hupperY)

/-- A share of a share is one. -/
theorem mul (hx : IsShare x) (hy : IsShare y) : IsShare (x * y) := by
  obtain ⟨hnan, hlower, hupper⟩ := hx.mul_bounds hy
  exact isShare_iff.mpr ⟨hnan, hlower, hupper.trans (isShare_iff.mp hx).2.2⟩

/-- A share of a share is at most the share itself. -/
theorem mul_le (hx : IsShare x) (hy : IsShare y) : x * y ≤ x := by
  obtain ⟨hnan, -, hupper⟩ := hx.mul_bounds hy
  exact le_iff.mpr ⟨hnan, (isShare_iff.mp hx).1, hupper⟩

end IsShare

/-! ## Shares that are read -/

/-- A value with a default has a property that both have. -/
lemma getD_of_forall {α : Type} {p : α → Prop} {o : Option α} {d : α} (h : ∀ v, o = some v → p v)
    (hd : p d) : p (o.getD d) := by
  cases o with
  | none => exact hd
  | some v => exact h v rfl

/-- What is read as an opacity is a share. -/
theorem isShare_opacity? {cs : List Char} {v : Float32} (h : opacity? cs = some v) : IsShare v := by
  unfold opacity? at h
  obtain ⟨share, hshare, rfl⟩ := Option.map_eq_some_iff.mp h
  refine isShare_clamp ?_
  split at hshare
  · obtain ⟨w, hw, rfl⟩ := Option.map_eq_some_iff.mp hshare
    exact isNaN_div (finiteNumber?_spec hw).2.2 rfl rfl
  · exact not_isNaN_of_isFinite (finiteNumber?_spec hshare).2.2

/-- The alpha value of a colour that is read is a share. -/
theorem isShare_alpha {cs : List Char} {c : AlphaColor} (h : AlphaColor.ofChars? cs = some c) :
    IsShare c.alpha := by
  unfold AlphaColor.ofChars? at h
  split at h
  · unfold Css.ColorValue.toAlphaColor? at h
    split at h
    · cases h
    · cases h
      dsimp only
      split_ifs with hfinite
      · exact isShare_clamp (not_isNaN_of_isFinite hfinite)
      · exact isShare_one
  · cases h

/-- A paint whose alpha value, if it is a colour, is a share. -/
def PaintSource.IsSound : PaintSource → Prop
  | .color c => IsShare c.alpha
  | _ => True

/-- A paint that is read is sound. -/
theorem PaintSource.isSound_ofChars? {cs : List Char} {p : PaintSource}
    (h : PaintSource.ofChars? cs = some p) : p.IsSound := by
  unfold PaintSource.ofChars? at h
  dsimp only at h
  split_ifs at h
  · cases h
    trivial
  · cases h
    trivial
  · split at h
    · cases h
      trivial
    · obtain ⟨c, hc, rfl⟩ := Option.map_eq_some_iff.mp h
      exact isShare_alpha hc

end SvgDisplayList
