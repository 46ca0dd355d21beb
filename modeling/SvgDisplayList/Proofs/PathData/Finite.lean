import SvgDisplayList.Proofs.Geometry.Finite
import SvgDisplayList.Proofs.PathData.Pen

/-!
# Path data with finite points

All numbers of path data are finite when they are read, and a step that takes its points from them
as they stand has finite points.  The other steps compute points: a relative step adds its points to
the current one, a smooth step mirrors a control point, a quadratic curve is drawn as a cubic one
and an arc as several of them.  `PathData.StepStaysFinite` says for each step which computations
must have a finite result, and `PathData.allFinite_draw_iff` says that the points of a drawing are
finite exactly if these results are, for every step that draws, and the starts of the subpaths.

Before a step that draws, the pen stands at the end of the step before it or at the start of a
subpath.  So the current point is finite as long as all that has been drawn is, and the induction
along the steps knows of it no more than this.
-/

namespace SvgDisplayList

open Binary32

/-! ## Quadratic curves -/

/-- Both coordinates of the vector from one point to another are finite. -/
def Point.IsFiniteFrom (p q : Point) : Prop :=
  (q.x - p.x).isFinite = true ∧ (q.y - p.y).isFinite = true

namespace Cubic

/-- A number that goes two thirds of the way to another one is finite exactly if the way is. -/
lemma isFinite_toward_iff {s c : Float32} :
    (s + 2 / 3 * (c - s)).isFinite = true ↔ (c - s).isFinite = true := by
  refine ⟨fun h => (isFinite_of_mul (isFinite_of_add h).2).2, fun h => ?_⟩
  have hthird : Between 42 43 (2 / 3) := by decide +kernel
  have hlower := hthird.lower
  have hupper := hthird.upper
  push_cast at hlower hupper
  obtain ⟨hc, hs⟩ := isFinite_of_sub h
  obtain ⟨hgreatest, -⟩ := threshold_spec
  obtain ⟨hcLower, hcUpper⟩ := abs_le.mp (abs_value_le_greatest hc)
  obtain ⟨herrorLower, herrorUpper⟩ := abs_le.mp (exact_sub h).2
  obtain ⟨hnan, hnearest⟩ := nearest_mul hthird.finite h
  rw [mul_comm] at hnearest
  -- the sum lies between the two numbers, up to the rounding of the way
  rcases le_total 0 (value (c - s)) with hforward | hback
  · have hpart := hnearest.isPart (isValue_value _) hforward (by linarith) (by linarith)
    have hfinite : (2 / 3 * (c - s)).isFinite = true := by
      refine isFinite_of_abs_le hnan h ?_
      rw [abs_of_nonneg hpart.nonneg, abs_of_nonneg hforward]
      exact hpart.le
    exact isFinite_add_part hfinite hpart hs (by linarith)
  · have hother := hnearest.neg
    rw [← neg_mul] at hother
    have hpart := hother.isPart (isValue_value _).neg (by linarith) (by linarith) (by linarith)
    have hfinite : (2 / 3 * (c - s)).isFinite = true := by
      refine isFinite_of_abs_le hnan h ?_
      rw [abs_of_nonpos (by linarith [hpart.nonneg]), abs_of_nonpos hback]
      exact hpart.le
    have hneg : |-value s| ≤ greatest := by
      rw [abs_neg]
      exact abs_value_le_greatest hs
    refine isFinite_add hs hfinite ?_
    rw [← abs_neg, neg_add]
    exact hpart.abs_add_lt hneg (by linarith)

/-- The cubic of a quadratic curve has finite points exactly if the control point is at a finite
distance from both ends. -/
theorem isFinite_ofQuadratic_iff {start control finish : Point} :
    (ofQuadratic start control finish).segment.IsFinite ↔
      start.IsFiniteFrom control ∧ finish.IsFiniteFrom control := by
  have hpoints : (ofQuadratic start control finish).segment.points =
      [⟨start.x + 2 / 3 * (control.x - start.x), start.y + 2 / 3 * (control.y - start.y)⟩,
        ⟨finish.x + 2 / 3 * (control.x - finish.x), finish.y + 2 / 3 * (control.y - finish.y)⟩,
        finish] := rfl
  have htoward (p : Point) :
      (⟨p.x + 2 / 3 * (control.x - p.x), p.y + 2 / 3 * (control.y - p.y)⟩ : Point).IsFinite ↔
        p.IsFiniteFrom control := and_congr isFinite_toward_iff isFinite_toward_iff
  have hfinish (h : finish.IsFiniteFrom control) : finish.IsFinite :=
    ⟨(isFinite_of_sub h.1).2, (isFinite_of_sub h.2).2⟩
  unfold Segment.IsFinite
  rw [hpoints, List.forall_mem_cons, List.forall_mem_cons, List.forall_mem_singleton, htoward,
    htoward]
  exact and_congr_right fun _ => and_iff_left_of_imp hfinish

end Cubic

namespace PathData

/-! ## Steps -/

/-- The numbers of a motion that are coordinates are finite. -/
def MotionIsFinite : Motion → Prop
  | .move p | .line p | .smoothQuadratic p | .arc _ p => p.IsFinite
  | .horizontal x => x.isFinite = true
  | .vertical y => y.isFinite = true
  | .smoothCubic q p | .quadratic q p => q.IsFinite ∧ p.IsFinite
  | .cubic q r p => q.IsFinite ∧ r.IsFinite ∧ p.IsFinite
  | .close => True

/-- What a step computes when it draws is finite: the points that it means, if it is relative, and
the control points that it does not read. -/
def StepStaysFinite (earlier : List Step) (s : Step) : Prop :=
  let start := position earlier
  let finish := position (s :: earlier)
  let at_ := absolute s.relative start
  match s.motion with
  | .move _ | .close => True
  | .line _ | .horizontal _ | .vertical _ => s.relative = true → finish.IsFinite
  | .cubic p q _ => s.relative = true → (at_ p).IsFinite ∧ (at_ q).IsFinite ∧ finish.IsFinite
  | .smoothCubic q _ => (mirrored (cubicControl? earlier) start).IsFinite ∧
      (s.relative = true → (at_ q).IsFinite ∧ finish.IsFinite)
  | .quadratic c _ => start.IsFiniteFrom (at_ c) ∧ finish.IsFiniteFrom (at_ c)
  | .smoothQuadratic _ => start.IsFiniteFrom (mirrored (quadraticControl? earlier) start) ∧
      finish.IsFiniteFrom (mirrored (quadraticControl? earlier) start)
  | .arc shape _ => (s.relative = true → finish.IsFinite) ∧
      ∀ cubics, shape.cubics? start finish = some cubics → ∀ c ∈ cubics, c.segment.IsFinite

/-- The segments of a step have finite points. -/
def DrawsFinite (earlier : List Step) (s : Step) : Prop :=
  ∀ g, .segment g ∈ strokesOf earlier s → g.IsFinite

/-- A step that draws one segment has finite points exactly if the segment has. -/
lemma drawsFinite_iff_of_eq {earlier : List Step} {s : Step} {g : Segment}
    (h : strokesOf earlier s = [.segment g]) : DrawsFinite earlier s ↔ g.IsFinite := by
  unfold DrawsFinite
  rw [h]
  constructor
  · exact fun hfinite => hfinite g (List.mem_singleton.mpr rfl)
  · intro hfinite g' hg'
    obtain rfl := Stroke.segment.inj (List.mem_singleton.mp hg')
    exact hfinite

/-- An arc is drawn as its cubics or as a line to its end. -/
lemma drawsFinite_arc_iff {earlier : List Step} {relative : Bool} {shape : ArcShape} {p : Point} :
    let finish := position (⟨relative, .arc shape p⟩ :: earlier)
    DrawsFinite earlier ⟨relative, .arc shape p⟩ ↔
      finish.IsFinite ∧ ∀ cubics, shape.cubics? (position earlier) finish = some cubics →
        ∀ c ∈ cubics, c.segment.IsFinite := by
  intro finish
  cases hcubics : shape.cubics? (position earlier) finish with
  | none =>
    have hstrokes : strokesOf earlier ⟨relative, .arc shape p⟩ = [.segment (.line finish)] := by
      unfold strokesOf
      dsimp only
      rw [hcubics]
    rw [drawsFinite_iff_of_eq hstrokes]
    simp
  | some cubics =>
    have hstrokes : strokesOf earlier ⟨relative, .arc shape p⟩ = cubics.map .cubic := by
      unfold strokesOf
      dsimp only
      rw [hcubics]
    obtain ⟨-, -, front, last, hlast, hfinish⟩ := ArcShape.finish_of_cubics? hcubics
    have hmem : last ∈ cubics := hlast ▸ List.mem_append_right front (List.mem_singleton.mpr rfl)
    unfold DrawsFinite
    rw [hstrokes]
    constructor
    · intro h
      have hall (c : Cubic) (hc : c ∈ cubics) : c.segment.IsFinite :=
        h _ (List.mem_map_of_mem hc)
      refine ⟨?_, fun cubics' heq => Option.some.inj heq ▸ hall⟩
      rw [← hfinish]
      exact hall last hmem last.finish (by simp [Cubic.segment, Segment.points])
    · rintro ⟨-, hall⟩ g hg
      obtain ⟨c, hc, heq⟩ := List.mem_map.mp hg
      obtain rfl := Stroke.segment.inj heq
      exact hall cubics rfl c hc

/-- A step that draws from a finite point has finite points exactly if what it computes is
finite. -/
theorem drawsFinite_iff {earlier : List Step} {s : Step} (hdraws : s.motion.draws = true)
    (hread : MotionIsFinite s.motion) (hposition : (position earlier).IsFinite) :
    DrawsFinite earlier s ↔ StepStaysFinite earlier s := by
  obtain ⟨relative, motion⟩ := s
  have himp {q : Point} (h : relative = false → q.IsFinite) :
      q.IsFinite ↔ (relative = true → q.IsFinite) := by
    cases relative <;> simp [h]
  have hat {q : Point} (hq : q.IsFinite) (hfalse : relative = false) :
      (absolute relative (position earlier) q).IsFinite := hfalse ▸ hq
  cases motion with
  | move | close => cases hdraws
  | line p =>
    rw [drawsFinite_iff_of_eq rfl, Segment.isFinite_line]
    exact himp (hat hread)
  | horizontal x =>
    rw [drawsFinite_iff_of_eq rfl, Segment.isFinite_line]
    exact himp fun hfalse => hfalse ▸ ⟨hread, hposition.2⟩
  | vertical y =>
    rw [drawsFinite_iff_of_eq rfl, Segment.isFinite_line]
    exact himp fun hfalse => hfalse ▸ ⟨hposition.1, hread⟩
  | cubic p q r =>
    obtain ⟨hp, hq, hr⟩ := hread
    rw [drawsFinite_iff_of_eq rfl, Segment.isFinite_cubic]
    refine (and_congr (himp (hat hp)) (and_congr (himp (hat hq)) (himp (hat hr)))).trans ?_
    rw [← imp_and, ← imp_and]
    rfl
  | smoothCubic q r =>
    obtain ⟨hq, hr⟩ := hread
    rw [drawsFinite_iff_of_eq rfl, Segment.isFinite_cubic]
    refine and_congr_right fun _ => ?_
    refine (and_congr (himp (hat hq)) (himp (hat hr))).trans ?_
    rw [← imp_and]
    rfl
  | quadratic c p => exact (drawsFinite_iff_of_eq rfl).trans Cubic.isFinite_ofQuadratic_iff
  | smoothQuadratic p => exact (drawsFinite_iff_of_eq rfl).trans Cubic.isFinite_ofQuadratic_iff
  | arc shape p => exact drawsFinite_arc_iff.trans (and_congr_left fun _ => himp (hat hread))

/-- The pen stands at a finite point behind a step with finite points. -/
lemma DrawsFinite.position {earlier : List Step} {s : Step} (h : DrawsFinite earlier s)
    (hdraws : s.motion.draws = true) : (position (s :: earlier)).IsFinite := by
  obtain ⟨relative, motion⟩ := s
  have hlast {g : Segment} {p : Point}
      (hstrokes : strokesOf earlier ⟨relative, motion⟩ = [.segment g]) (hfinish : g.finish = p) :
      p.IsFinite := by
    refine (drawsFinite_iff_of_eq hstrokes).mp h p ?_
    rw [← hfinish]
    cases g <;> simp [Segment.points, Segment.finish]
  cases motion with
  | move | close => cases hdraws
  | arc shape p => exact (drawsFinite_arc_iff.mp h).1
  | line | horizontal | vertical | cubic | smoothCubic | quadratic | smoothQuadratic =>
    exact hlast rfl rfl

/-! ## Drawings -/

/-- The steps behind others stay finite: for each one that draws, the start of its subpath is
finite and what it computes is. -/
def StepsStayFinite (earlier : List Step) : List Step → Prop
  | [] => True
  | s :: steps =>
    (s.motion.draws = true → (lastMove earlier).IsFinite ∧ StepStaysFinite earlier s) ∧
      StepsStayFinite (s :: earlier) steps

/-- A segment has finite points with the start of its subpath, and adds nothing more to what comes
behind it. -/
lemma allFinite_subpaths_segment {anchor : Point} {g : Segment} {rest : List Stroke} :
    AllFinite (subpaths anchor (.segment g :: rest)) ↔
      anchor.IsFinite ∧ g.IsFinite ∧ AllFinite (subpaths anchor rest) := by
  rw [subpaths, subpath, allFinite_cons, List.forall_mem_cons]
  refine and_congr_right fun hanchor => ?_
  rw [and_assoc]
  refine and_congr_right fun _ => ?_
  cases rest with
  | nil => simp [run, behindRun]
  | cons stroke rest =>
    cases stroke with
    | segment g' =>
      rw [run, behindRun, subpaths, subpath, allFinite_cons]
      exact (and_iff_right hanchor).symm
    | move p => simp [run, behindRun]
    | close => simp [run, behindRun]

/-- Segments have finite points with the start of their subpath, and add nothing more to what comes
behind them. -/
lemma allFinite_subpaths_segments {anchor : Point} {g : Segment} {gs : List Segment}
    {rest : List Stroke} :
    AllFinite (subpaths anchor ((g :: gs).map .segment ++ rest)) ↔
      anchor.IsFinite ∧ (∀ g' ∈ g :: gs, g'.IsFinite) ∧ AllFinite (subpaths anchor rest) := by
  induction gs generalizing g with
  | nil =>
    rw [List.forall_mem_singleton]
    exact allFinite_subpaths_segment
  | cons g' gs ih =>
    rw [List.map_cons, List.cons_append, allFinite_subpaths_segment, ih,
      List.forall_mem_cons (a := g)]
    exact and_congr_right fun hanchor => by rw [and_iff_right hanchor, and_assoc]

/-- Behind a step that does not draw, the pen stands where the last move went. -/
lemma position_of_not_draws {s : Step} (h : s.motion.draws = false) (earlier : List Step) :
    position (s :: earlier) = lastMove (s :: earlier) := by
  obtain ⟨relative, motion⟩ := s
  cases motion with
  | move | close => simp only [position, lastMove]
  | line | horizontal | vertical | cubic | smoothCubic | quadratic | smoothQuadratic | arc =>
    cases h

/-- The subpaths of steps have finite points exactly if the steps stay finite. -/
theorem allFinite_strokes_iff {steps earlier : List Step}
    (hread : ∀ s ∈ steps, MotionIsFinite s.motion)
    (hposition : (lastMove earlier).IsFinite → (position earlier).IsFinite) :
    AllFinite (subpaths (lastMove earlier) (strokes earlier steps)) ↔
      StepsStayFinite earlier steps := by
  induction steps generalizing earlier with
  | nil => simp [strokes, subpaths, StepsStayFinite]
  | cons s steps ih =>
    obtain ⟨hs, hsteps⟩ := List.forall_mem_cons.mp hread
    rw [StepsStayFinite]
    cases hdraws : s.motion.draws with
    | false =>
      have hmoved := position_of_not_draws hdraws earlier
      rw [subpaths_of_not_draws hdraws, ih hsteps fun hlast => hmoved ▸ hlast]
      simp
    | true =>
      obtain ⟨g, gs, hstrokes⟩ := exists_segments earlier hdraws
      have hlast : lastMove (s :: earlier) = lastMove earlier :=
        lastMove_of_draws (List.forall_mem_singleton.mpr hdraws) earlier
      have hsegments : (∀ g' ∈ g :: gs, g'.IsFinite) ↔ DrawsFinite earlier s := by
        unfold DrawsFinite
        rw [hstrokes]
        simp
      rw [strokes, hstrokes, allFinite_subpaths_segments, hsegments, forall_prop_of_true rfl,
        and_assoc]
      refine and_congr_right fun hanchor => ?_
      rw [← drawsFinite_iff hdraws hs (hposition hanchor)]
      refine and_congr_right fun hfinite => ?_
      -- the step has been drawn finitely, so the pen stands at a finite point behind it
      rw [← hlast]
      exact ih hsteps fun _ => hfinite.position hdraws

/-- The numbers of path data that is read are finite. -/
lemma motionIsFinite_of_ofPathData {d : String} {steps : List Step}
    (h : Step.ofPathData d = .ok steps) : ∀ s ∈ steps, MotionIsFinite s.motion := by
  obtain ⟨is, -, -, rfl⟩ := ofPathData_steps_iff.mp h
  intro s hs
  obtain ⟨i, -, hs⟩ := List.mem_flatMap.mp hs
  obtain ⟨set, -, rfl⟩ := List.mem_map.mp hs
  have hpoint (p : Coordinates) : p.point.IsFinite := ⟨p.x.isFinite, p.y.isFinite⟩
  cases set with
  | move p | line p | smoothQuadratic p | arc _ _ _ _ _ p => exact hpoint p
  | horizontal x => exact x.isFinite
  | vertical y => exact y.isFinite
  | smoothCubic q p | quadratic q p => exact ⟨hpoint q, hpoint p⟩
  | cubic q r p => exact ⟨hpoint q, hpoint r, hpoint p⟩
  | close => trivial

/-- The points of a drawing are finite exactly if the steps stay finite. -/
theorem allFinite_draw_iff {d : String} {steps : List Step} (h : Step.ofPathData d = .ok steps) :
    AllFinite (Step.draw steps) ↔ StepsStayFinite [] steps := by
  rw [draw_eq_interpret]
  have horigin : (position []).IsFinite := ⟨by decide, by decide⟩
  exact allFinite_strokes_iff (motionIsFinite_of_ofPathData h) fun _ => horigin

end PathData

end SvgDisplayList
