import SvgDisplayList.Geometry.Arc
import SvgDisplayList.Proofs.Number.Angle

/-!
# The pieces of an arc

An arc turns by at most one full turn, whichever way round it goes (`ArcShape.abs_directed_le`), so
it is cut into at most four pieces.  A turn that is not a number, which radii beyond the largest
number may lead to, makes one piece.  In either case the last piece ends in the point that was asked
for (`ArcShape.finish_of_cubics?`).
-/

namespace SvgDisplayList

open Binary32

/-! ## Pieces of an ellipse -/

namespace Ellipse

variable (e : Ellipse) (delta : Float32) (last : Point)

/-- There are as many pieces as were asked for. -/
lemma length_pieces (count : Nat) (theta : Float32) :
    (e.pieces delta last count theta).length = count := by
  induction count, theta using pieces.induct delta with
  | case1 => rfl
  | case2 => rfl
  | case3 theta n ih => rw [pieces, List.length_cons, ih]

/-- The last piece ends in the given point. -/
lemma finish_pieces {count : Nat} (hcount : count ≠ 0) (theta : Float32) :
    ∃ front c, e.pieces delta last count theta = front ++ [c] ∧ c.finish = last := by
  induction count, theta using pieces.induct delta with
  | case1 => exact absurd rfl hcount
  | case2 theta => exact ⟨[], _, rfl, rfl⟩
  | case3 theta n ih =>
    obtain ⟨front, c, hpieces, hfinish⟩ := ih (by omega)
    exact ⟨_ :: front, c, by rw [pieces, hpieces, List.cons_append], hfinish⟩

end Ellipse

namespace ArcShape

/-! ## The turn of an arc -/

/-- The turn between two vectors, made to go the way round that was asked for. -/
def directed (sweep : Bool) (turn : Float32) : Float32 :=
  if !sweep && turn > 0 then turn - 2 * Angle.halfTurn
  else if sweep && turn < 0 then turn + 2 * Angle.halfTurn
  else turn

/-- The number of pieces of a turn. -/
def pieceCount (turn : Float32) : Nat :=
  max 1 (Binary32.ceilNat (turn.abs / quarterTurn - 0.001))

/-- A turn goes at most once round, whichever way. -/
lemma abs_directed_le {turn : Float32}
    (hturn : turn.isNaN = true ∨ |value turn| ≤ value Angle.halfTurn) (sweep : Bool) :
    (directed sweep turn).isNaN = true ∨
      |value (directed sweep turn)| ≤ value (2 * Angle.halfTurn) := by
  have hfull : (2 * Angle.halfTurn).isFinite = true := by decide +kernel
  have htwice : value Angle.halfTurn ≤ value (2 * Angle.halfTurn) := by decide +kernel
  have hlimit : value Angle.halfTurn < 2 ^ (128 : ℤ) := by decide +kernel
  rcases hnan : turn.isNaN with _ | _
  · have hhalf : |value turn| ≤ value Angle.halfTurn :=
      hturn.resolve_left (by rw [hnan]; decide)
    have hfinite : turn.isFinite = true := isFinite_iff.mpr ⟨hnan, hhalf.trans_lt hlimit⟩
    obtain ⟨hlower, hupper⟩ := abs_le.mp hhalf
    refine Or.inr ?_
    unfold directed
    split_ifs with hback hforth
    · rw [Bool.and_eq_true, decide_eq_true_iff] at hback
      have hpositive : 0 < value turn := (lt_iff.mp hback.2).2.2
      refine (rounds_sub hfinite hfull).2.abs_le_of_abs_le (isValue_value _) (abs_le.mpr ?_)
      constructor <;> linarith
    · rw [Bool.and_eq_true, decide_eq_true_iff] at hforth
      have hnegative : value turn < 0 := (lt_iff.mp hforth.2).2.2
      refine (rounds_add hfinite hfull).2.abs_le_of_abs_le (isValue_value _) (abs_le.mpr ?_)
      constructor <;> linarith
    · exact hhalf.trans htwice
  · -- what is not a number is on neither side of zero
    have hback : ¬ turn > 0 := fun h => absurd hnan (by rw [(lt_iff.mp h).2.1]; decide)
    have hforth : ¬ turn < 0 := fun h => absurd hnan (by rw [(lt_iff.mp h).1]; decide)
    refine Or.inl ?_
    simpa [directed, hback, hforth] using hnan

/-- A turn of at most once round is cut into at most four pieces. -/
lemma pieceCount_bounds {turn : Float32}
    (hturn : turn.isNaN = true ∨ |value turn| ≤ value (2 * Angle.halfTurn)) :
    1 ≤ pieceCount turn ∧ pieceCount turn ≤ 4 := by
  refine ⟨Nat.le_max_left _ _, Nat.max_le.mpr ⟨by decide, ?_⟩⟩
  rcases hnan : turn.isNaN with _ | _
  · have hfull : |value turn| ≤ value (2 * Angle.halfTurn) :=
      hturn.resolve_left (by rw [hnan]; decide)
    have hlimit : value (2 * Angle.halfTurn) < 2 ^ (128 : ℤ) := by decide +kernel
    have hquarter : quarterTurn.isFinite = true := by decide +kernel
    have hpos : 0 < value quarterTurn := by decide +kernel
    have hfour : value (2 * Angle.halfTurn) ≤ 4 * value quarterTurn := by decide +kernel
    have hmilli : Between 0 1 (0.001 : Float32) := by decide +kernel
    have hfinite : turn.isFinite = true := isFinite_iff.mpr ⟨hnan, hfull.trans_lt hlimit⟩
    have hquotient : Between 0 256 (turn.abs / quarterTurn) := by
      refine .of_rounds (rounds_div (isFinite_abs hfinite) hquarter hpos.ne') (by decide) ?_ ?_
      · rw [value_abs]
        simpa using div_nonneg (abs_nonneg (value turn)) hpos.le
      · rw [value_abs, div_le_iff₀ hpos]
        norm_num
        linarith
    have hcount : Between (-1) 256 (turn.abs / quarterTurn - 0.001) :=
      hquotient.sub hmilli (by decide) (by decide)
    refine ceilNat_le (hcount.upper.trans_eq ?_)
    norm_num
  · have hnone : (turn.abs / quarterTurn - 0.001).isNaN = true :=
      isNaN_sub_left (isNaN_div_left (by rwa [isNaN_abs]) _) _
    have hinfinite : (turn.abs / quarterTurn - 0.001).isFinite = false := by
      rw [Bool.eq_false_iff]
      exact fun h => absurd hnone (by rw [not_isNaN_of_isFinite h]; decide)
    rw [ceilNat_of_not_isFinite hinfinite]
    exact Nat.zero_le 4

/-! ## The cubics of an arc -/

/-- An arc that does not degenerate is the pieces of an ellipse. -/
lemma cubics?_eq_pieces {arc : ArcShape} {start finish : Point} {cubics : List Cubic}
    (h : arc.cubics? start finish = some cubics) :
    ∃ (e : Ellipse) (theta delta : Float32) (u v : Point),
      cubics = e.pieces delta finish
        (pieceCount (directed arc.sweep (angleBetween u.x u.y v.x v.y))) theta := by
  unfold cubics? at h
  extract_lets rx ry at h
  split_ifs at h
  exact ⟨_, _, _, ⟨_, _⟩, ⟨_, _⟩, (Option.some.inj h).symm⟩

/-- An arc is one to four cubics, of which the last one ends in the end point of the arc. -/
theorem finish_of_cubics? {arc : ArcShape} {start finish : Point} {cubics : List Cubic}
    (h : arc.cubics? start finish = some cubics) :
    1 ≤ cubics.length ∧ cubics.length ≤ 4 ∧
      ∃ front c, cubics = front ++ [c] ∧ c.finish = finish := by
  obtain ⟨e, theta, delta, u, v, rfl⟩ := cubics?_eq_pieces h
  obtain ⟨hone, hfour⟩ := pieceCount_bounds
    (abs_directed_le (Angle.abs_atan2_le (u.x * v.y - u.y * v.x) (u.x * v.x + u.y * v.y)) arc.sweep)
  rw [Ellipse.length_pieces]
  exact ⟨hone, hfour, Ellipse.finish_pieces e delta finish (Nat.pos_iff_ne_zero.mp hone) theta⟩

end ArcShape

end SvgDisplayList
