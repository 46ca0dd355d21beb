import SvgDisplayList.Proofs.PathData.Finite

/-!
# Shapes with finite points

A number that is read is finite, but the coordinates of a shape are computed from such numbers: a
unit or a percentage multiplies them, a rectangle and an ellipse add extents to positions, and path
data goes on from points that it has reached.  None of these results is checked, and a coordinate
that is not finite becomes zero when it is snapped.  A length is known to be finite only where it
counts user units (`ReferenceSizes.isFinite_resolve`).

A shape that is accepted therefore has finite points exactly if the few results on which all its
points depend are finite (`Shape.StaysFinite`, `Shape.allFinite_subpaths_iff`): the far corner of a
rectangle, the four extreme points of an ellipse, the ends of a line, what each step of path data
computes.  Polylines and polygons compute nothing.
-/

namespace SvgDisplayList

open Binary32

/-! ## Lengths -/

namespace ReferenceSizes

/-- A length counts user units: it is not a percentage, and its unit, if it has one, is of size
one. -/
def CountsUserUnits (r : ReferenceSizes) (cs : List Char) : Prop :=
  Text.before? ['%'] (Text.trim cs) = none ∧ (r.splitUnit (Text.trim cs)).2 = 1

/-- A length that counts user units is finite. -/
lemma isFinite_resolve {r : ReferenceSizes} {axis : Axis} {cs : List Char} {x : Float32}
    (h : r.resolve axis cs = some x) (hunits : r.CountsUserUnits cs) : x.isFinite = true := by
  obtain ⟨hpercent, hone⟩ := hunits
  unfold resolve at h
  simp only [hpercent, hone] at h
  obtain ⟨v, hv, rfl⟩ := Option.map_eq_some_iff.mp h
  have hfinite := (finiteNumber?_spec hv).2.2
  obtain ⟨hnan, hrounds⟩ := rounds_mul hfinite (by decide : (1 : Float32).isFinite = true)
  rw [value_one, mul_one] at hrounds
  refine isFinite_of_abs_le hnan hfinite ?_
  rw [hrounds.eq_of_isValue (isValue_value v)]

end ReferenceSizes

/-! ## Shapes -/

namespace Shape

/-- The results on which the points of a shape depend are finite. -/
def StaysFinite (shape : Shape) (tag : Xml.Tag) (sizes : ReferenceSizes) : Prop :=
  match shape with
  | .path => ∀ d, tag.attribute? "d" = some d → ∀ steps, Step.ofPathData d = .ok steps →
      PathData.StepsStayFinite [] steps
  | .rect => ∀ x, tag.length "x" .horizontal sizes = .ok x →
      ∀ y, tag.length "y" .vertical sizes = .ok y →
      ∀ w, tag.extent "width" .horizontal sizes = .ok w →
      ∀ h, tag.extent "height" .vertical sizes = .ok h →
      (w ≤ 0 ∨ h ≤ 0) ∨ (x + w).isFinite = true ∧ (y + h).isFinite = true
  | .circle => ∀ cx, tag.length "cx" .horizontal sizes = .ok cx →
      ∀ cy, tag.length "cy" .vertical sizes = .ok cy →
      ∀ r, tag.extent "r" .diagonal sizes = .ok r →
      r ≤ 0 ∨ ((cx + r).isFinite = true ∧ (cx - r).isFinite = true) ∧
        (cy + r).isFinite = true ∧ (cy - r).isFinite = true
  | .ellipse => ∀ cx, tag.length "cx" .horizontal sizes = .ok cx →
      ∀ cy, tag.length "cy" .vertical sizes = .ok cy →
      ∀ rx, tag.extent "rx" .horizontal sizes = .ok rx →
      ∀ ry, tag.extent "ry" .vertical sizes = .ok ry →
      (rx ≤ 0 ∨ ry ≤ 0) ∨ ((cx + rx).isFinite = true ∧ (cx - rx).isFinite = true) ∧
        (cy + ry).isFinite = true ∧ (cy - ry).isFinite = true
  | .line => ∀ x₁, tag.length "x1" .horizontal sizes = .ok x₁ →
      ∀ y₁, tag.length "y1" .vertical sizes = .ok y₁ →
      ∀ x₂, tag.length "x2" .horizontal sizes = .ok x₂ →
      ∀ y₂, tag.length "y2" .vertical sizes = .ok y₂ →
      Point.IsFinite ⟨x₁, y₁⟩ ∧ Point.IsFinite ⟨x₂, y₂⟩
  | .polyline | .polygon => True

section

variable {tag : Xml.Tag} {sizes : ReferenceSizes} {drawn : List Subpath}

/-- A path has finite points exactly if its steps stay finite. -/
lemma allFinite_path_iff (h : pathSubpaths tag = .ok drawn) :
    AllFinite drawn ↔ Shape.path.StaysFinite tag sizes := by
  unfold pathSubpaths at h
  cases hd : tag.attribute? "d" with
  | none =>
    rw [hd] at h
    cases h
  | some d =>
    simp only [hd] at h
    obtain ⟨hsteps, rfl⟩ :=
      PathData.steps_of_ofPathData ((Yields.mapError _ ElementError.invalidPath).of_eq_ok h)
    simp only [StaysFinite, hd, hsteps, Option.some.injEq, Except.ok.injEq, forall_eq']
    exact PathData.allFinite_draw_iff hsteps

/-- What a computation yields that is mapped. -/
lemma map_eq_ok {ε α β : Type} {x : Except ε α} {f : α → β} {b : β} (h : x.map f = .ok b) :
    ∃ a, x = .ok a ∧ f a = b := by
  cases x with
  | error e => cases h
  | ok a => exact ⟨a, rfl, Except.ok.inj h⟩

/-- The other shapes have finite points exactly if they stay finite. -/
lemma allFinite_outline_iff {shape : Shape} {o : Outline} (h : shape.outline tag sizes = .ok o)
    (hpath : shape ≠ .path) : AllFinite o.subpaths ↔ shape.StaysFinite tag sizes := by
  cases shape with
  | path => exact absurd rfl hpath
  | rect =>
    obtain ⟨x, hx, h⟩ := bind_eq_ok_iff.mp h
    obtain ⟨y, hy, h⟩ := bind_eq_ok_iff.mp h
    obtain ⟨w, hw, h⟩ := bind_eq_ok_iff.mp h
    obtain ⟨height, hh, h⟩ := bind_eq_ok_iff.mp h
    obtain ⟨rx?, -, h⟩ := bind_eq_ok_iff.mp h
    obtain ⟨ry?, -, h⟩ := bind_eq_ok_iff.mp h
    obtain rfl := Except.ok.inj h
    simp only [StaysFinite, hx, hy, hw, hh, Except.ok.injEq, forall_eq']
    exact allFinite_rectangle_iff rx? ry?
  | circle =>
    obtain ⟨cx, hcx, h⟩ := bind_eq_ok_iff.mp h
    obtain ⟨cy, hcy, h⟩ := bind_eq_ok_iff.mp h
    obtain ⟨r, hr, h⟩ := bind_eq_ok_iff.mp h
    obtain rfl := Except.ok.inj h
    simp only [StaysFinite, hcx, hcy, hr, Except.ok.injEq, forall_eq']
    rw [allFinite_oval_iff, or_self]
  | ellipse =>
    obtain ⟨cx, hcx, h⟩ := bind_eq_ok_iff.mp h
    obtain ⟨cy, hcy, h⟩ := bind_eq_ok_iff.mp h
    obtain ⟨rx, hrx, h⟩ := bind_eq_ok_iff.mp h
    obtain ⟨ry, hry, h⟩ := bind_eq_ok_iff.mp h
    obtain rfl := Except.ok.inj h
    simp only [StaysFinite, hcx, hcy, hrx, hry, Except.ok.injEq, forall_eq']
    exact allFinite_oval_iff
  | line =>
    obtain ⟨x₁, hx₁, h⟩ := bind_eq_ok_iff.mp h
    obtain ⟨y₁, hy₁, h⟩ := bind_eq_ok_iff.mp h
    obtain ⟨x₂, hx₂, h⟩ := bind_eq_ok_iff.mp h
    obtain ⟨y₂, hy₂, h⟩ := bind_eq_ok_iff.mp h
    obtain rfl := Except.ok.inj h
    simp only [StaysFinite, hx₁, hy₁, hx₂, hy₂, Except.ok.injEq, forall_eq']
    exact allFinite_line_iff
  | polyline =>
    obtain ⟨ps, hps, rfl⟩ := map_eq_ok h
    exact iff_of_true (allFinite_through (isFinite_of_mem_points hps)).1 trivial
  | polygon =>
    obtain ⟨ps, hps, rfl⟩ := map_eq_ok h
    exact iff_of_true (allFinite_through (isFinite_of_mem_points hps)).2 trivial

end

/-- A shape that is accepted has finite points exactly if the results stay finite on which they
depend.  A length that is read is finite if it counts user units. -/
theorem allFinite_subpaths_iff (tag : Xml.Tag) (sizes : ReferenceSizes) :
    (∀ (shape : Shape) drawn, shape.subpaths tag sizes = .ok drawn →
      (AllFinite drawn ↔ shape.StaysFinite tag sizes)) ∧
    ∀ axis cs x, sizes.resolve axis cs = some x → sizes.CountsUserUnits cs →
      x.isFinite = true := by
  refine ⟨fun shape drawn hdrawn => ?_, fun axis cs x => ReferenceSizes.isFinite_resolve⟩
  by_cases hpath : shape = .path
  · subst hpath
    exact allFinite_path_iff hdrawn
  · have hmap : (shape.outline tag sizes).map Outline.subpaths = .ok drawn := by
      cases shape with
      | path => exact absurd rfl hpath
      | _ => exact hdrawn
    obtain ⟨o, ho, rfl⟩ := map_eq_ok hmap
    exact allFinite_outline_iff ho hpath

/-- A rectangle whose position is a finite number of centimeters, but not of user units. -/
def farAway : Xml.Tag :=
  ⟨0, none, "rect", [⟨none, "x", "3e38cm"⟩, ⟨none, "width", "1"⟩, ⟨none, "height", "1"⟩]⟩

/-- This rectangle is accepted and does not stay finite, so that it has points that are not; their
first coordinate is snapped to zero.  Without the unit the length is finite. -/
theorem allFinite_subpaths_iff_farAway :
    ∃ drawn, Shape.rect.subpaths farAway .initial = .ok drawn ∧
      ¬ Shape.rect.StaysFinite farAway .initial ∧ ¬ AllFinite drawn ∧
      (drawn.map Subpath.snapped ==
        [⟨⟨0, 0⟩, #[.line ⟨0, 0⟩, .line ⟨0, 1⟩, .line ⟨0, 1⟩], true⟩]) = true ∧
      ∀ x, ReferenceSizes.initial.resolve .horizontal "3e38".toList = some x →
        x.isFinite = true := by
  obtain ⟨hiff, hlength⟩ := allFinite_subpaths_iff farAway .initial
  have hescapes : ¬ Shape.rect.StaysFinite farAway .initial := by
    intro hstays
    have hcorner := hstays Binary32.infinity rfl 0 rfl 1 rfl 1 rfl
    revert hcorner
    decide +kernel
  have hdrawn : Shape.rect.subpaths farAway .initial = .ok _ := rfl
  refine ⟨_, hdrawn, hescapes, fun hfinite => hescapes ((hiff _ _ hdrawn).mp hfinite),
    by decide +kernel, fun x hx => hlength _ _ x hx ⟨by decide +kernel, by decide +kernel⟩⟩

end Shape

end SvgDisplayList
