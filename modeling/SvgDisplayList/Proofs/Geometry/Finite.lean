import SvgDisplayList.Proofs.Geometry.NumberList
import SvgDisplayList.Proofs.Number.Bounds
import SvgDisplayList.Proofs.Number.Overflow
import SvgDisplayList.Scene.ShapeOutline

/-!
# Outlines with finite coordinates

The corners of a rectangle are sums, and the points beside a rounded corner are sums and differences
of these and of its radii.  A radius is at most half of the side (`Shape.IsRadius`), which is what
keeps these points in range when the corners are: a point that was rounded to beyond its corner is
taken back by the next radius (`Shape.isFinite_along`).  So a rectangle has finite points exactly if
its corners are finite (`Shape.allFinite_rectangle_iff`), and an ellipse exactly if its extreme
points are (`Shape.allFinite_oval_iff`).  Lines through points compute nothing, and the points of a
list are finite as they are read (`Shape.allFinite_through`, `Shape.isFinite_of_mem_points`).
-/

namespace SvgDisplayList

open Binary32

/-- Both coordinates of a point are finite. -/
def Point.IsFinite (p : Point) : Prop := p.x.isFinite = true ∧ p.y.isFinite = true

/-- All points of a segment but the one it starts from are finite. -/
def Segment.IsFinite (g : Segment) : Prop := ∀ p ∈ g.points, p.IsFinite

namespace Segment

variable {p q r : Point}

@[simp] lemma isFinite_line : (line p).IsFinite ↔ p.IsFinite := by simp [IsFinite, points]

@[simp] lemma isFinite_cubic :
    (cubic p q r).IsFinite ↔ p.IsFinite ∧ q.IsFinite ∧ r.IsFinite := by simp [IsFinite, points]

end Segment

/-- All points of subpaths are finite. -/
def AllFinite (drawn : List Subpath) : Prop := ∀ s ∈ drawn, ∀ p ∈ s.points, p.IsFinite

/-- No subpaths have no points. -/
@[simp] lemma allFinite_nil : AllFinite [] := fun s hs => by cases hs

/-- A subpath in front of others has finite points exactly if its start and its segments have. -/
@[simp] lemma allFinite_cons {start : Point} {gs : List Segment} {closed : Bool}
    {others : List Subpath} : AllFinite (⟨start, gs.toArray, closed⟩ :: others) ↔
      start.IsFinite ∧ (∀ g ∈ gs, g.IsFinite) ∧ AllFinite others := by
  unfold AllFinite
  rw [List.forall_mem_cons, ← and_assoc]
  refine and_congr_left fun _ => ?_
  simp only [Subpath.points, List.forall_mem_cons, List.mem_flatMap, Segment.IsFinite]
  exact and_congr_right fun _ => ⟨fun h g hg p hp => h p ⟨g, hg, hp⟩,
    fun h p ⟨g, hg, hp⟩ => h g hg p hp⟩

namespace Shape

/-! ## Along one side -/

/-- A number is a radius for a side: positive, and at most one or at most half of the side. -/
structure IsRadius (r w : Float32) : Prop where
  finite : r.isFinite = true
  pos : 0 < value r
  small : value r ≤ 1 ∨ 2 * value r ≤ value w

/-- The handle of a radius is finite, and a part of the radius. -/
lemma handle_spec {r : Float32} (hr : r.isFinite = true) (hpos : 0 < value r) :
    (r * quarterHandle).isFinite = true ∧ IsPart (value (r * quarterHandle)) (value r) := by
  have hhandle : Between 35 36 quarterHandle := by decide +kernel
  obtain ⟨hnan, hnearest⟩ := nearest_mul hr hhandle.finite
  have hlower := hhandle.lower
  have hupper := hhandle.upper
  push_cast at hlower hupper
  have hpart := hnearest.isPart (isValue_value r) hpos.le (by linarith) (by linarith)
  refine ⟨isFinite_of_abs_le hnan hr ?_, hpart⟩
  rw [abs_of_nonneg hpart.nonneg, abs_of_pos hpos]
  exact hpart.le

section

variable {a w r : Float32}

/-- The points of a side with rounded corners are finite if its ends are. -/
lemma isFinite_along (hside : (a + w).isFinite = true) (hradius : IsRadius r w) :
    (a + r).isFinite = true ∧ (a + w - r).isFinite = true ∧
      (a + w - r + r * quarterHandle).isFinite = true ∧
      (a + r - r * quarterHandle).isFinite = true := by
  obtain ⟨hr, hpos, hsmall⟩ := hradius
  obtain ⟨ha, hw⟩ := isFinite_of_add hside
  obtain ⟨hgreatest, hinfinity⟩ := threshold_spec
  have hunit : (1 : ℚ) < 2 ^ (103 : ℤ) := by norm_num
  obtain ⟨haLower, haUpper⟩ := abs_le.mp (abs_value_le_greatest ha)
  obtain ⟨hsideLower, hsideUpper⟩ := abs_le.mp (abs_value_le_greatest hside)
  obtain ⟨hk, hpart⟩ := handle_spec hr hpos
  obtain ⟨hexact, herror⟩ := exact_add hside
  obtain ⟨hexactLower, hexactUpper⟩ := abs_le.mp hexact
  obtain ⟨herrorLower, herrorUpper⟩ := abs_le.mp herror
  have hnear : (a + r).isFinite = true := by
    refine isFinite_add ha hr (abs_lt.mpr ?_)
    rcases hsmall with hone | hhalf <;> constructor <;> linarith
  have hfar : (a + w - r).isFinite = true := by
    refine isFinite_sub hside hr (abs_lt.mpr ⟨?_, by linarith⟩)
    rcases hsmall with hone | hhalf
    · linarith
    · -- the side is shorter than the last unit, or longer than the rounding of its end
      rcases le_or_gt (2 ^ (103 : ℤ)) (value w / 2) with hlong | hshort <;> linarith
  -- the rounding of the inner points leads at most to the threshold beyond the ends
  exact ⟨hnear, hfar,
    isFinite_add_part hk hpart hfar (by linarith [(abs_le.mp (exact_sub hfar).2).2]),
    isFinite_sub_part hk hpart hnear (by linarith [(abs_le.mp (exact_add hnear).2).1])⟩

/-- The points of half an ellipse are finite if its ends are. -/
lemma isFinite_across (hplus : (a + r).isFinite = true) (hminus : (a - r).isFinite = true)
    (hpos : 0 < value r) :
    (a + r * quarterHandle).isFinite = true ∧ (a - r * quarterHandle).isFinite = true := by
  obtain ⟨ha, hr⟩ := isFinite_of_add hplus
  obtain ⟨hk, hpart⟩ := handle_spec hr hpos
  exact ⟨isFinite_add_part hk hpart ha (abs_le.mp (exact_add hplus).1).2,
    isFinite_sub_part hk hpart ha (abs_le.mp (exact_sub hminus).1).1⟩

/-- A number that is not at or below zero is above it. -/
lemma value_pos_of_not_le {x : Float32} (hx : x.isNaN = false) (h : ¬ x ≤ 0) : 0 < value x := by
  rw [le_iff, value_zero] at h
  by_contra hle
  exact h ⟨hx, by decide, not_lt.mp hle⟩

/-- The smaller of two numbers is not above the second one. -/
lemma min_spec {b : Float32} (hb : b.isNaN = false) (a : Float32) :
    (Binary32.min a b).isNaN = false ∧ value (Binary32.min a b) ≤ value b := by
  unfold Binary32.min
  split_ifs with ha hb' hlt
  · exact ⟨hb, le_rfl⟩
  · rw [hb] at hb'
    cases hb'
  · exact ⟨hb, le_rfl⟩
  · rw [Bool.not_eq_true] at ha
    exact ⟨ha, (le_iff.mp (le_of_not_lt hb ha hlt)).2.2⟩

/-- What is left of a radius that must not exceed half of a side is a radius for the side, unless
nothing is left. -/
lemma isRadius_min (hw : w.isFinite = true) (hr : ¬ Binary32.min r (w / 2) ≤ 0) :
    IsRadius (Binary32.min r (w / 2)) w := by
  obtain ⟨hnan, hsmall, hhalf⟩ := value_half hw
  obtain ⟨hminNaN, hle⟩ := min_spec hnan r
  have hpos := value_pos_of_not_le hminNaN hr
  have hlt := (isFinite_iff.mp hw).2
  rcases le_or_gt (value w) 1 with hone | hone
  · have hleOne := hle.trans (hsmall hone)
    refine ⟨isFinite_iff.mpr ⟨hminNaN, ?_⟩, hpos, Or.inl hleOne⟩
    rw [abs_of_pos hpos]
    exact hleOne.trans_lt (by norm_num)
  · rw [hhalf hone.le] at hle
    refine ⟨isFinite_iff.mpr ⟨hminNaN, ?_⟩, hpos, Or.inr (by linarith)⟩
    rw [abs_of_pos hpos]
    linarith [le_abs_self (value w)]

end

/-! ## Outlines -/

section

variable {x y w h : Float32}

/-- A rectangle with square corners has finite points exactly if its corners are finite. -/
lemma allFinite_squareRectangle_iff :
    AllFinite (squareRectangle x y w h).subpaths ↔
      (x + w).isFinite = true ∧ (y + h).isFinite = true := by
  have hdrawn : (squareRectangle x y w h).subpaths =
      [⟨⟨x, y⟩, #[.line ⟨x + w, y⟩, .line ⟨x + w, y + h⟩, .line ⟨x, y + h⟩], true⟩] := rfl
  have hx (hright : (x + w).isFinite = true) := isFinite_of_add hright
  have hy (hbottom : (y + h).isFinite = true) := isFinite_of_add hbottom
  simp only [hdrawn, allFinite_cons, allFinite_nil, List.forall_mem_cons, List.not_mem_nil,
    Segment.isFinite_line, Point.IsFinite]
  tauto

/-- A rectangle with rounded corners has finite points exactly if its corners are finite. -/
lemma allFinite_roundedRectangle_iff {rx ry : Float32}
    (hrx : w.isFinite = true → IsRadius rx w) (hry : h.isFinite = true → IsRadius ry h) :
    AllFinite (roundedRectangle x y w h rx ry).subpaths ↔
      (x + w).isFinite = true ∧ (y + h).isFinite = true := by
  have hdrawn : (roundedRectangle x y w h rx ry).subpaths =
      [⟨⟨x + rx, y⟩,
        #[.line ⟨x + w - rx, y⟩,
          .cubic ⟨x + w - rx + rx * quarterHandle, y⟩ ⟨x + w, y + ry - ry * quarterHandle⟩
            ⟨x + w, y + ry⟩,
          .line ⟨x + w, y + h - ry⟩,
          .cubic ⟨x + w, y + h - ry + ry * quarterHandle⟩
            ⟨x + w - rx + rx * quarterHandle, y + h⟩ ⟨x + w - rx, y + h⟩,
          .line ⟨x + rx, y + h⟩,
          .cubic ⟨x + rx - rx * quarterHandle, y + h⟩ ⟨x, y + h - ry + ry * quarterHandle⟩
            ⟨x, y + h - ry⟩,
          .line ⟨x, y + ry⟩,
          .cubic ⟨x, y + ry - ry * quarterHandle⟩ ⟨x + rx - rx * quarterHandle, y⟩
            ⟨x + rx, y⟩], true⟩] := rfl
  simp only [hdrawn, allFinite_cons, allFinite_nil, List.forall_mem_cons, List.not_mem_nil,
    Segment.isFinite_line, Segment.isFinite_cubic, Point.IsFinite]
  constructor
  · rintro ⟨-, ⟨-, -, ⟨hright, -⟩, -, ⟨-, hbottom⟩, -⟩, -⟩
    exact ⟨hright, hbottom⟩
  · rintro ⟨hright, hbottom⟩
    obtain ⟨hx, hw⟩ := isFinite_of_add hright
    obtain ⟨hy, hh⟩ := isFinite_of_add hbottom
    obtain ⟨hx₁, hx₂, hx₃, hx₄⟩ := isFinite_along hright (hrx hw)
    obtain ⟨hy₁, hy₂, hy₃, hy₄⟩ := isFinite_along hbottom (hry hh)
    simp [*]

/-- A rectangle has finite points exactly if it has no extent or its corners are finite. -/
theorem allFinite_rectangle_iff (rx? ry? : Option Float32) :
    AllFinite (rectangle x y w h (cornerRadii w h rx? ry?).1
        (cornerRadii w h rx? ry?).2).subpaths ↔
      (w ≤ 0 ∨ h ≤ 0) ∨ (x + w).isFinite = true ∧ (y + h).isFinite = true := by
  unfold rectangle
  split_ifs with hextent hradii
  · rw [Bool.or_eq_true, decide_eq_true_eq, decide_eq_true_eq] at hextent
    exact iff_of_true allFinite_nil (Or.inl hextent)
  · rw [Bool.or_eq_true, decide_eq_true_eq, decide_eq_true_eq] at hextent
    rw [allFinite_squareRectangle_iff, or_iff_right hextent]
  · rw [Bool.or_eq_true, decide_eq_true_eq, decide_eq_true_eq] at hextent
    rw [Bool.or_eq_true, decide_eq_true_eq, decide_eq_true_eq, not_or] at hradii
    have hrx : w.isFinite = true → IsRadius (cornerRadii w h rx? ry?).1 w :=
      fun hw => isRadius_min hw hradii.1
    have hry : h.isFinite = true → IsRadius (cornerRadii w h rx? ry?).2 h :=
      fun hh => isRadius_min hh hradii.2
    rw [allFinite_roundedRectangle_iff hrx hry, or_iff_right hextent]

variable {cx cy rx ry : Float32}

/-- An ellipse has finite points exactly if it has no extent or its extreme points are finite. -/
theorem allFinite_oval_iff :
    AllFinite (oval cx cy rx ry).subpaths ↔
      (rx ≤ 0 ∨ ry ≤ 0) ∨ ((cx + rx).isFinite = true ∧ (cx - rx).isFinite = true) ∧
        (cy + ry).isFinite = true ∧ (cy - ry).isFinite = true := by
  unfold oval
  split_ifs with hextent
  · rw [Bool.or_eq_true, decide_eq_true_eq, decide_eq_true_eq] at hextent
    exact iff_of_true allFinite_nil (Or.inl hextent)
  rw [Bool.or_eq_true, decide_eq_true_eq, decide_eq_true_eq] at hextent
  rw [or_iff_right hextent]
  have hdrawn (ox oy : Float32) : (Outline.empty.moveTo ⟨cx + rx, cy⟩
        |>.cubicTo ⟨cx + rx, cy + oy⟩ ⟨cx + ox, cy + ry⟩ ⟨cx, cy + ry⟩
        |>.cubicTo ⟨cx - ox, cy + ry⟩ ⟨cx - rx, cy + oy⟩ ⟨cx - rx, cy⟩
        |>.cubicTo ⟨cx - rx, cy - oy⟩ ⟨cx - ox, cy - ry⟩ ⟨cx, cy - ry⟩
        |>.cubicTo ⟨cx + ox, cy - ry⟩ ⟨cx + rx, cy - oy⟩ ⟨cx + rx, cy⟩
        |>.close).subpaths =
      [⟨⟨cx + rx, cy⟩,
        #[.cubic ⟨cx + rx, cy + oy⟩ ⟨cx + ox, cy + ry⟩ ⟨cx, cy + ry⟩,
          .cubic ⟨cx - ox, cy + ry⟩ ⟨cx - rx, cy + oy⟩ ⟨cx - rx, cy⟩,
          .cubic ⟨cx - rx, cy - oy⟩ ⟨cx - ox, cy - ry⟩ ⟨cx, cy - ry⟩,
          .cubic ⟨cx + ox, cy - ry⟩ ⟨cx + rx, cy - oy⟩ ⟨cx + rx, cy⟩], true⟩] := rfl
  simp only [hdrawn, allFinite_cons, allFinite_nil, List.forall_mem_cons, List.not_mem_nil,
    Segment.isFinite_cubic, Point.IsFinite]
  constructor
  · rintro ⟨⟨hright, -⟩, ⟨⟨-, -, -, hbottom⟩, ⟨-, -, hleft, -⟩, ⟨-, -, -, htop⟩, -⟩, -⟩
    exact ⟨⟨hright, hleft⟩, hbottom, htop⟩
  · rintro ⟨⟨hright, hleft⟩, hbottom, htop⟩
    obtain ⟨hcx, hrx⟩ := isFinite_of_add hright
    obtain ⟨hcy, hry⟩ := isFinite_of_add hbottom
    rw [not_or] at hextent
    obtain ⟨hx₁, hx₂⟩ := isFinite_across hright hleft
      (value_pos_of_not_le (not_isNaN_of_isFinite hrx) hextent.1)
    obtain ⟨hy₁, hy₂⟩ := isFinite_across hbottom htop
      (value_pos_of_not_le (not_isNaN_of_isFinite hry) hextent.2)
    simp [*]

end

/-! ## Lines -/

/-- A line has finite points exactly if its ends are finite. -/
lemma allFinite_line_iff {p q : Point} :
    AllFinite ((Outline.empty.moveTo p).lineTo q).subpaths ↔ p.IsFinite ∧ q.IsFinite := by
  have hdrawn : ((Outline.empty.moveTo p).lineTo q).subpaths = [⟨p, #[.line q], false⟩] := rfl
  simp [hdrawn]

/-- Lines are drawn behind the segments of the open subpath. -/
lemma foldl_lineTo (done : Array Subpath) (p a : Point) (gs : List Segment) (ps : List Point) :
    ps.foldl Outline.lineTo ⟨done, some ⟨p, gs.toArray, false⟩, a⟩ =
      ⟨done, some ⟨p, (gs ++ ps.map Segment.line).toArray, false⟩, a⟩ := by
  induction ps generalizing gs with
  | nil => rw [List.foldl_nil, List.map_nil, List.append_nil]
  | cons q ps ih =>
    have hstep : Outline.lineTo ⟨done, some ⟨p, gs.toArray, false⟩, a⟩ q =
        ⟨done, some ⟨p, (gs ++ [Segment.line q]).toArray, false⟩, a⟩ := by
      rw [← List.push_toArray]
      rfl
    rw [List.foldl_cons, hstep, ih, List.map_cons, List.append_assoc, List.singleton_append]

/-- Lines through finite points have finite points, closed or not. -/
lemma allFinite_through {ps : List Point} (h : ∀ p ∈ ps, p.IsFinite) :
    AllFinite (through ps).subpaths ∧ AllFinite (through ps).close.subpaths := by
  cases ps with
  | nil => exact ⟨allFinite_nil, allFinite_nil⟩
  | cons p ps =>
    have hkept (closed : Bool) :
        AllFinite (Outline.keep #[] ⟨p, (ps.map Segment.line).toArray, closed⟩).toList := by
      unfold Outline.keep
      split_ifs
      · exact allFinite_nil
      · simpa using h
    have hthrough : through (p :: ps) =
        ⟨#[], some ⟨p, (ps.map Segment.line).toArray, false⟩, p⟩ := foldl_lineTo #[] p p [] ps
    rw [hthrough]
    exact ⟨hkept false, hkept true⟩

/-- The points of finite coordinates are finite. -/
lemma isFinite_of_mem_pairs : ∀ {xs : List Float32}, (∀ x ∈ xs, x.isFinite = true) →
    ∀ p ∈ pairs xs, p.IsFinite
  | [], _, p, hp => by cases hp
  | [_], _, p, hp => by cases hp
  | x :: y :: rest, h, p, hp => by
    rcases List.mem_cons.mp hp with rfl | hp
    · exact ⟨h x (List.mem_cons_self ..), h y (by simp)⟩
    · exact isFinite_of_mem_pairs (fun z hz => h z (by simp [hz])) p hp

/-- The points that an element gives are finite. -/
lemma isFinite_of_mem_points {tag : Xml.Tag} {ps : List Point} (h : points tag = .ok ps) :
    ∀ p ∈ ps, p.IsFinite := by
  unfold points at h
  split at h
  · cases h
  · split at h
    · next xs hxs =>
      obtain rfl := Except.ok.inj h
      exact isFinite_of_mem_pairs (numberList?_eq_some_iff.mp hxs).isFinite
    · cases h

end Shape

end SvgDisplayList
