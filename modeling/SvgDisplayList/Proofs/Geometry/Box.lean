import SvgDisplayList.Proofs.Geometry.Finite

/-!
# The box around an outline

The box of an outline is computed by one pass over its points that keeps the least and the greatest
coordinates.  What is not a number is skipped, and the pass starts from the infinities, so that what
it has kept after some points is the least and the greatest of the coordinates seen so far that are
numbers (`Extent.Spans`), or still an infinity.  This is preserved by one more point
(`Extent.Spans.add`), and hence true at the end.

It says nothing of the order in which the points were seen, so the box does not depend on it
(`Extent.Spans.beq_box?`), except for the sign of a zero.  That the box holds the curves too, and
not only their points, is de Casteljau's construction: a point of a cubic curve lies between points
that lie between points of the outline (`Segment.positionAt_mem`).
-/

namespace SvgDisplayList

open Binary32

/-! ## Extremes -/

/-- The values of the infinities. -/
lemma Binary32.value_infinities :
    value infinity = 2 ^ (128 : ℤ) ∧ value negInfinity = -2 ^ (128 : ℤ) := by
  constructor <;> rfl

/-- One of the two ends of the order of numbers. -/
inductive Side where
  | least
  | greatest

namespace Side

/-- The order of numbers, seen from an end. -/
def Before : Side → Float32 → Float32 → Prop
  | least, x, y => x ≤ y
  | greatest, x, y => y ≤ x

/-- What is kept of two numbers on the way to an end. -/
def choose : Side → Float32 → Float32 → Float32
  | least => Binary32.min
  | greatest => Binary32.max

/-- The infinity that is farthest from an end. -/
def farthest : Side → Float32
  | least => infinity
  | greatest => negInfinity

variable {side : Side} {x y z m n : Float32} {xs ys : List Float32}

/-- What is passed over stays behind. -/
lemma Before.trans (h : side.Before x y) (h' : side.Before y z) : side.Before x z := by
  cases side with
  | least => exact le_trans h h'
  | greatest => exact le_trans h' h

/-- Numbers that stand before each other are equal. -/
lemma Before.beq (h : side.Before x y) (h' : side.Before y x) : (x == y) = true := by
  have hbeq {x y : Float32} (h : x ≤ y) (h' : y ≤ x) : (x == y) = true := by
    obtain ⟨hx, hy, hle⟩ := le_iff.mp h
    exact beq_iff.mpr ⟨hx, hy, hle.antisymm (le_iff.mp h').2.2⟩
  cases side with
  | least => exact hbeq h h'
  | greatest => exact hbeq h' h

/-- What is kept of a number and whatever comes next is one of them, and stands before both. -/
lemma choose_spec (side : Side) (hx : x.isNaN = false) (y : Float32) :
    (side.choose x y = x ∨ side.choose x y = y ∧ y.isNaN = false) ∧
      side.Before (side.choose x y) x ∧ (y.isNaN = false → side.Before (side.choose x y) y) := by
  have hself {z : Float32} (hz : z.isNaN = false) : side.Before z z := by
    cases side <;> exact le_self hz
  cases hy : y.isNaN with
  | true =>
    have hkept : side.choose x y = x := by
      cases side <;>
        simp only [choose, Binary32.min, Binary32.max, hx, hy, Bool.false_eq_true, if_false,
          if_true]
    rw [hkept]
    exact ⟨Or.inl rfl, hself hx, fun h => by cases h⟩
  | false =>
    cases side with
    | least =>
      simp only [choose, Binary32.min, hx, hy, Bool.false_eq_true, if_false]
      split_ifs with hlt
      · exact ⟨Or.inr ⟨rfl, trivial⟩, le_of_lt hlt, fun _ => hself hy⟩
      · exact ⟨Or.inl rfl, hself hx, fun _ => le_of_not_lt hy hx hlt⟩
    | greatest =>
      simp only [choose, Binary32.max, hx, hy, Bool.false_eq_true, if_false]
      split_ifs with hlt
      · exact ⟨Or.inr ⟨rfl, trivial⟩, le_of_lt hlt, fun _ => hself hy⟩
      · exact ⟨Or.inl rfl, hself hx, fun _ => le_of_not_lt hx hy hlt⟩

/-- Every number stands before the farthest one. -/
lemma before_farthest (hx : x.isNaN = false) : side.Before x side.farthest := by
  obtain ⟨-, -, -, -, hvalue⟩ := isValue_value x
  obtain ⟨hlower, hupper⟩ := abs_le.mp hvalue
  cases side with
  | least => exact le_iff.mpr ⟨hx, by decide, hupper.trans_eq value_infinities.1.symm⟩
  | greatest => exact le_iff.mpr ⟨by decide, hx, value_infinities.2.trans_le hlower⟩

/-- No finite number stands behind the farthest one. -/
lemma not_farthest_before (side : Side) (hx : x.isFinite = true) :
    ¬ side.Before side.farthest x := by
  obtain ⟨hlower, hupper⟩ := abs_lt.mp (isFinite_iff.mp hx).2
  intro h
  cases side with
  | least => exact absurd hupper (not_lt.mpr (value_infinities.1.symm.trans_le (le_iff.mp h).2.2))
  | greatest => exact absurd hlower (not_lt.mpr ((le_iff.mp h).2.2.trans_eq value_infinities.2))

/-- A number is an extreme of a list: it stands before all numbers of the list, and is one of them
unless there are none.  What is not a number does not count. -/
structure IsExtreme (side : Side) (m : Float32) (xs : List Float32) : Prop where
  number : m.isNaN = false
  mem : m ∈ xs ∨ m = side.farthest
  before : ∀ x ∈ xs, x.isNaN = false → side.Before m x

namespace IsExtreme

/-- The extreme of nothing. -/
lemma nil (side : Side) : side.IsExtreme side.farthest [] where
  number := by cases side <;> decide
  mem := Or.inr rfl
  before := fun x hx => by cases hx

/-- One more number is kept if it passes over the extreme. -/
lemma add (h : side.IsExtreme m xs) (x : Float32) :
    side.IsExtreme (side.choose m x) (xs ++ [x]) := by
  obtain ⟨hkept, hold, hnew⟩ := choose_spec side h.number x
  refine ⟨?_, ?_, fun y hy hnumber => ?_⟩
  · rcases hkept with hkept | ⟨hkept, hx⟩
    · rw [hkept]
      exact h.number
    · rwa [hkept]
  · rcases hkept with hkept | ⟨hkept, -⟩
    · rw [hkept]
      exact h.mem.imp_left (List.mem_append_left _)
    · rw [hkept]
      exact Or.inl (List.mem_append_right _ (List.mem_singleton_self x))
  · rcases List.mem_append.mp hy with hy | hy
    · exact hold.trans (h.before y hy hnumber)
    · rw [List.mem_singleton.mp hy] at hnumber ⊢
      exact hnew hnumber

/-- The extreme of a list with a finite number is in the list. -/
lemma mem_of_isFinite (h : side.IsExtreme m xs) (hx : x ∈ xs) (hfinite : x.isFinite = true) :
    m ∈ xs := by
  refine h.mem.resolve_right fun hfar => not_farthest_before side hfinite ?_
  rw [← hfar]
  exact h.before x hx (not_isNaN_of_isFinite hfinite)

/-- An extreme that is finite is in the list. -/
lemma mem_of_finite (h : side.IsExtreme m xs) (hfinite : m.isFinite = true) : m ∈ xs := by
  refine h.mem.resolve_right fun hfar => ?_
  rw [hfar] at hfinite
  cases side <;> exact absurd hfinite (by decide)

/-- The extreme of a list stands before that of a part. -/
lemma before_of_subset (h : side.IsExtreme m xs) (h' : side.IsExtreme n ys) (hsub : ys ⊆ xs) :
    side.Before m n := by
  rcases h'.mem with hmem | rfl
  · exact h.before n (hsub hmem) h'.number
  · exact before_farthest h.number

/-- Lists with the same members have equal extremes. -/
lemma beq_of_perm (h : side.IsExtreme m xs) (h' : side.IsExtreme n ys) (hperm : xs.Perm ys) :
    (m == n) = true :=
  (h.before_of_subset h' hperm.symm.subset).beq (h'.before_of_subset h hperm.subset)

end IsExtreme

end Side

/-! ## Extents -/

/-- One of the two dimensions of the plane. -/
inductive Dimension where
  | x
  | y

/-- The coordinate of a point in a dimension. -/
def Dimension.of : Dimension → Point → Float32
  | x, p => p.x
  | y, p => p.y

namespace Extent

variable {e e' : Extent} {ps ps' : List Point}

/-- The corner of an extent on a side. -/
def corner (e : Extent) : Side → Point
  | .least => e.least
  | .greatest => e.greatest

/-- The corners of an extent are the extremes of points. -/
def Spans (e : Extent) (ps : List Point) : Prop :=
  ∀ (side : Side) (d : Dimension),
    side.IsExtreme (d.of (e.corner side)) (ps.map d.of)

/-- All four sides of an extent are finite. -/
def IsFinite (e : Extent) : Prop := ∀ side, (e.corner side).IsFinite

/-- One more point. -/
lemma Spans.add (h : e.Spans ps) (p : Point) : (e.add p).Spans (ps ++ [p]) := by
  intro side d
  have hcorner : d.of ((e.add p).corner side) =
      side.choose (d.of (e.corner side)) (d.of p) := by
    cases side <;> cases d <;> rfl
  rw [hcorner, List.map_append]
  exact (h side d).add (d.of p)

/-- The extent that was made from points spans them. -/
theorem spans_foldl (ps : List Point) : (ps.foldl add empty).Spans ps := by
  induction ps using List.reverseRecOn with
  | nil =>
    intro side d
    have hcorner : d.of (empty.corner side) = side.farthest := by
      cases side <;> cases d <;> rfl
    rw [List.foldl_nil, hcorner]
    exact .nil side
  | append_singleton ps p ih =>
    rw [List.foldl_append]
    exact ih.add p

/-- The condition for a box is that the extent is finite. -/
lemma isFinite_iff : e.IsFinite ↔ (e.least.x.isFinite && e.least.y.isFinite &&
    e.greatest.x.isFinite && e.greatest.y.isFinite) = true := by
  simp only [Bool.and_eq_true]
  constructor
  · intro h
    exact ⟨⟨⟨(h .least).1, (h .least).2⟩, (h .greatest).1⟩, (h .greatest).2⟩
  · rintro ⟨⟨⟨hleft, htop⟩, hright⟩, hbottom⟩ side
    cases side with
    | least => exact ⟨hleft, htop⟩
    | greatest => exact ⟨hright, hbottom⟩

/-- There is no box exactly if the extent is not finite. -/
lemma box?_eq_none_iff : e.box? = none ↔ ¬ e.IsFinite := by
  rw [isFinite_iff, box?]
  split_ifs with h <;> simp [h]

/-- The coordinates of a finite extent are finite. -/
lemma IsFinite.of (h : e.IsFinite) (side : Side) (d : Dimension) :
    (d.of (e.corner side)).isFinite = true := by
  cases d with
  | x => exact (h side).1
  | y => exact (h side).2

namespace Spans

/-- The least coordinate is not above the greatest. -/
lemma least_le_greatest (h : e.Spans ps) (hfinite : e.IsFinite) (d : Dimension) :
    d.of e.least ≤ d.of e.greatest :=
  (h .greatest d).before _ ((h .least d).mem_of_finite (hfinite.of .least d)) (h .least d).number

/-- The box has the differences of the extremes as its sides. -/
lemma box?_eq (h : e.Spans ps) (hfinite : e.IsFinite) :
    e.box? = some ⟨e.least.x, e.least.y, e.greatest.x - e.least.x, e.greatest.y - e.least.y⟩ := by
  have hside (d : Dimension) :
      Binary32.max (d.of e.greatest - d.of e.least) 0 = d.of e.greatest - d.of e.least :=
    max_sub_zero (hfinite.of .greatest d) (hfinite.of .least d) (h.least_le_greatest hfinite d)
  rw [box?, if_pos (isFinite_iff.mp hfinite)]
  exact congrArg some (congrArg₂ (Box.mk e.least.x e.least.y) (hside .x) (hside .y))

/-- The same points in another order have equal extremes. -/
lemma beq_of_perm (h : e.Spans ps) (h' : e'.Spans ps') (hperm : ps.Perm ps') (side : Side)
    (d : Dimension) : (d.of (e.corner side) == d.of (e'.corner side)) = true :=
  (h side d).beq_of_perm (h' side d) (hperm.map d.of)

/-- The same points in another order have a finite extent again. -/
lemma isFinite_of_perm (h : e.Spans ps) (h' : e'.Spans ps') (hperm : ps.Perm ps')
    (hfinite : e.IsFinite) : e'.IsFinite := fun side =>
  ⟨(isFinite_congr (h.beq_of_perm h' hperm side .x)).mp (hfinite side).1,
    (isFinite_congr (h.beq_of_perm h' hperm side .y)).mp (hfinite side).2⟩

/-- The same points in another order have an equal box, or none. -/
theorem beq_box? (h : e.Spans ps) (h' : e'.Spans ps') (hperm : ps.Perm ps') :
    (e.box? == e'.box?) = true := by
  have hbeq := h.beq_of_perm h' hperm
  by_cases hfinite : e.IsFinite
  · have hlength (d : Dimension) := sub_beq_sub (hbeq .greatest d) (hbeq .least d)
      (hfinite.of .greatest d) (hfinite.of .least d)
    rw [h.box?_eq hfinite, h'.box?_eq (h.isFinite_of_perm h' hperm hfinite)]
    change (_ == _ && (_ == _ && (_ == _ && _ == _))) = true
    rw [Bool.and_eq_true, Bool.and_eq_true, Bool.and_eq_true]
    exact ⟨hbeq .least .x, hbeq .least .y, hlength .x, hlength .y⟩
  · have hfinite' : ¬ e'.IsFinite := mt (h'.isFinite_of_perm h hperm.symm) hfinite
    rw [box?_eq_none_iff.mpr hfinite, box?_eq_none_iff.mpr hfinite']
    rfl

end Spans

end Extent

/-! ## Curves -/

/-- What is mixed from two values between bounds lies between the bounds. -/
lemma mix_mem {lo hi a b t : ℚ} (ha : a ∈ Set.Icc lo hi) (hb : b ∈ Set.Icc lo hi)
    (ht : t ∈ Set.Icc (0 : ℚ) 1) : (1 - t) * a + t * b ∈ Set.Icc lo hi := by
  have hrest : 0 ≤ 1 - t := sub_nonneg.mpr ht.2
  constructor
  · calc lo = (1 - t) * lo + t * lo := by ring
      _ ≤ (1 - t) * a + t * b := by gcongr; exacts [ha.1, ht.1, hb.1]
  · calc (1 - t) * a + t * b ≤ (1 - t) * hi + t * hi := by gcongr; exacts [ha.2, ht.1, hb.2]
      _ = hi := by ring

namespace Segment

variable {start start' p : Point} {g : Segment} {gs : List Segment}

/-- The exact coordinate of the point that a segment passes at a parameter: from its start at zero
to its end at one. -/
def positionAt (d : Dimension) (start : Point) (t : ℚ) : Segment → ℚ
  | line p => (1 - t) * value (d.of start) + t * value (d.of p)
  | cubic p q r =>
    (1 - t) ^ 3 * value (d.of start) + 3 * (1 - t) ^ 2 * t * value (d.of p) +
      3 * (1 - t) * t ^ 2 * value (d.of q) + t ^ 3 * value (d.of r)

/-- A segment lies between bounds of its points. -/
theorem positionAt_mem {d : Dimension} {lo hi t : ℚ} (ht : t ∈ Set.Icc (0 : ℚ) 1)
    (h : ∀ p ∈ start :: g.points, value (d.of p) ∈ Set.Icc lo hi) :
    g.positionAt d start t ∈ Set.Icc lo hi := by
  have hstart := h start List.mem_cons_self
  cases g with
  | line p => exact mix_mem hstart (h p (by simp [points])) ht
  | cubic p q r =>
    have hp := h p (by simp [points])
    have hq := h q (by simp [points])
    have hr := h r (by simp [points])
    -- each point of one row is mixed from two neighbours in the row before
    have hpq := mix_mem hp hq ht
    have hcurve := mix_mem (mix_mem (mix_mem hstart hp ht) hpq ht)
      (mix_mem hpq (mix_mem hq hr ht) ht) ht
    convert hcurve using 1
    unfold positionAt
    ring

/-- Segments with the points where they start: each starts where the one before it ends. -/
def chain (start : Point) : List Segment → List (Point × Segment)
  | [] => []
  | g :: gs => (start, g) :: chain g.finish gs

/-- The end of a segment is one of its points. -/
lemma finish_mem_points (g : Segment) : g.finish ∈ g.points := by
  cases g <;> simp [finish, points]

/-- The points of the segments of a chain are those of the segments and the first start. -/
lemma mem_points_of_mem_chain (h : (start', g) ∈ chain start gs) (hp : p ∈ start' :: g.points) :
    p ∈ start :: gs.flatMap points := by
  induction gs generalizing start with
  | nil => cases h
  | cons g' gs ih =>
    rw [List.flatMap_cons]
    rcases List.mem_cons.mp h with heq | hlater
    · obtain ⟨rfl, rfl⟩ := Prod.mk.inj heq
      rcases List.mem_cons.mp hp with rfl | hp
      · exact List.mem_cons_self
      · exact List.mem_cons_of_mem _ (List.mem_append_left _ hp)
    · refine List.mem_cons_of_mem _ (List.mem_append.mpr ?_)
      rcases List.mem_cons.mp (ih hlater) with rfl | hp
      · exact Or.inl g'.finish_mem_points
      · exact Or.inr hp

end Segment

/-- The segments of a subpath with the points where they start. -/
def Subpath.pieces (s : Subpath) : List (Point × Segment) :=
  Segment.chain s.start s.segments.toList

/-! ## Boxes -/

/-- The coordinates of all points of subpaths, control points included. -/
def coordinates (d : Dimension) (drawn : List Subpath) : List Float32 :=
  (drawn.flatMap Subpath.points).map d.of

/-- Where a box begins. -/
def Dimension.start : Dimension → Box → Float32
  | x, box => box.x
  | y, box => box.y

/-- How long a box is. -/
def Dimension.length : Dimension → Box → Float32
  | x, box => box.width
  | y, box => box.height

/-- In one dimension, a box reaches exactly from the least coordinate to the greatest, and all
segments lie between the two. -/
structure Box.Frames (box : Box) (d : Dimension) (greatest : Float32) (drawn : List Subpath) :
    Prop where
  least_mem : d.start box ∈ coordinates d drawn
  greatest_mem : greatest ∈ coordinates d drawn
  least_le : ∀ c ∈ coordinates d drawn, d.start box ≤ c
  le_greatest : ∀ c ∈ coordinates d drawn, c ≤ greatest
  length_eq : d.length box = greatest - d.start box
  segments : ∀ s ∈ drawn, ∀ piece ∈ s.pieces, ∀ t ∈ Set.Icc (0 : ℚ) 1,
    piece.2.positionAt d piece.1 t ∈ Set.Icc (value (d.start box)) (value greatest)

/-- The extent of all points of subpaths. -/
def extent (drawn : List Subpath) : Extent :=
  (drawn.flatMap Subpath.points).foldl Extent.add .empty

variable {drawn drawn' : List Subpath}

/-- The extent of subpaths with finite points is finite, if there are any. -/
lemma isFinite_extent (hne : drawn ≠ []) (h : AllFinite drawn) : (extent drawn).IsFinite := by
  have hfinite {d : Dimension} : ∀ c ∈ coordinates d drawn, c.isFinite = true := by
    intro c hc
    obtain ⟨p, hp, rfl⟩ := List.mem_map.mp hc
    obtain ⟨s, hs, hp⟩ := List.mem_flatMap.mp hp
    cases d with
    | x => exact (h s hs p hp).1
    | y => exact (h s hs p hp).2
  have hcorner (side : Side) (d : Dimension) :
      (d.of ((extent drawn).corner side)).isFinite = true := by
    obtain ⟨s, hs⟩ := List.exists_mem_of_ne_nil drawn hne
    have hmem : d.of s.start ∈ coordinates d drawn :=
      List.mem_map_of_mem (List.mem_flatMap.mpr ⟨s, hs, List.mem_cons_self⟩)
    exact hfinite _ ((Extent.spans_foldl _ side d).mem_of_isFinite hmem (hfinite _ hmem))
  exact fun side => ⟨hcorner side .x, hcorner side .y⟩

/-- The box of subpaths with finite points frames them. -/
lemma exists_frames (hne : drawn ≠ []) (h : AllFinite drawn) :
    ∃ box, bounds? drawn = some box ∧ ∀ d, ∃ greatest, box.Frames d greatest drawn := by
  have hspans : (extent drawn).Spans (drawn.flatMap Subpath.points) := Extent.spans_foldl _
  have hfinite := isFinite_extent hne h
  refine ⟨_, hspans.box?_eq hfinite, fun d => ⟨d.of (extent drawn).greatest, ?_⟩⟩
  have hstart {w v : Float32} : d.start ⟨(extent drawn).least.x, (extent drawn).least.y, w, v⟩ =
      d.of (extent drawn).least := by
    cases d <;> rfl
  have hbetween : ∀ c ∈ coordinates d drawn,
      d.of (extent drawn).least ≤ c ∧ c ≤ d.of (extent drawn).greatest := by
    intro c hc
    obtain ⟨p, hp, rfl⟩ := List.mem_map.mp hc
    obtain ⟨s, hs, hp'⟩ := List.mem_flatMap.mp hp
    have hnumber : (d.of p).isNaN = false := by
      cases d with
      | x => exact not_isNaN_of_isFinite (h s hs p hp').1
      | y => exact not_isNaN_of_isFinite (h s hs p hp').2
    exact ⟨(hspans .least d).before _ hc hnumber, (hspans .greatest d).before _ hc hnumber⟩
  refine ⟨?_, (hspans .greatest d).mem_of_finite (hfinite.of .greatest d), ?_,
    fun c hc => (hbetween c hc).2, ?_, ?_⟩
  · rw [hstart]
    exact (hspans .least d).mem_of_finite (hfinite.of .least d)
  · rw [hstart]
    exact fun c hc => (hbetween c hc).1
  · cases d <;> rfl
  · rw [hstart]
    intro s hs piece hpiece t ht
    refine Segment.positionAt_mem ht fun p hp => ?_
    have hmem : d.of p ∈ coordinates d drawn := List.mem_map_of_mem
      (List.mem_flatMap.mpr ⟨s, hs, Segment.mem_points_of_mem_chain hpiece hp⟩)
    exact ⟨(le_iff.mp (hbetween _ hmem).1).2.2, (le_iff.mp (hbetween _ hmem).2).2.2⟩

/-- There is no box exactly if an extreme of the coordinates is not finite. -/
lemma bounds?_eq_none_iff : bounds? drawn = none ↔ ∃ (side : Side) (d : Dimension) (m : Float32),
    side.IsExtreme m (coordinates d drawn) ∧ m.isFinite = false := by
  have hspans : (extent drawn).Spans (drawn.flatMap Subpath.points) := Extent.spans_foldl _
  rw [show bounds? drawn = (extent drawn).box? from rfl, Extent.box?_eq_none_iff]
  constructor
  · intro h
    by_contra hnone
    have hfinite (side : Side) (d : Dimension) :
        (d.of ((extent drawn).corner side)).isFinite = true :=
      Bool.not_eq_false _ ▸ fun hnot => hnone ⟨side, d, _, hspans side d, hnot⟩
    exact h fun side => ⟨hfinite side .x, hfinite side .y⟩
  · rintro ⟨side, d, m, hm, hnot⟩ hfinite
    have hbeq := (hspans side d).beq_of_perm hm (List.Perm.refl _)
    rw [(isFinite_congr hbeq).mp (hfinite.of side d)] at hnot
    cases hnot

/-- The box of subpaths reaches from the least to the greatest of their coordinates and holds all
of their segments, in whichever order the subpaths stand; there is none if an extreme is not
finite. -/
theorem bounds?_frames_segments (drawn : List Subpath) :
    (drawn ≠ [] → AllFinite drawn →
      ∃ box, bounds? drawn = some box ∧ ∀ d, ∃ greatest, box.Frames d greatest drawn) ∧
    (∀ drawn', drawn.Perm drawn' → (bounds? drawn == bounds? drawn') = true) ∧
    (bounds? drawn = none ↔ ∃ (side : Side) (d : Dimension) (m : Float32),
      side.IsExtreme m (coordinates d drawn) ∧ m.isFinite = false) := by
  refine ⟨exists_frames, fun drawn' hperm => ?_, bounds?_eq_none_iff⟩
  exact (Extent.spans_foldl _).beq_box? (Extent.spans_foldl _) (hperm.flatMap_right _)

/-- A subpath of a line and a curve, beside one that has only been opened. -/
theorem bounds?_frames_segments_arch :
    let arch : List Subpath :=
      [⟨⟨0, 0⟩, #[.line ⟨1, 0⟩, .cubic ⟨2, 3⟩ ⟨4, 5⟩ ⟨-1, 2⟩], false⟩, .opened ⟨7, -3⟩]
    arch ≠ [] ∧ AllFinite arch ∧
      (∃ box, bounds? arch = some box ∧ ∀ d, ∃ greatest, box.Frames d greatest arch) ∧
      arch.Perm arch.reverse ∧ (bounds? arch == bounds? arch.reverse) = true := by
  intro arch
  have hfinite : AllFinite arch := by
    unfold AllFinite Point.IsFinite
    decide +kernel
  have hperm : arch.Perm arch.reverse := (List.reverse_perm arch).symm
  obtain ⟨hbox, horder, -⟩ := bounds?_frames_segments arch
  exact ⟨by decide, hfinite, hbox (by decide) hfinite, hperm, horder arch.reverse hperm⟩

end SvgDisplayList
