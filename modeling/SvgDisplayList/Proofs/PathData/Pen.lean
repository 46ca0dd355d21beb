import SvgDisplayList.Proofs.Geometry.Arc
import SvgDisplayList.Proofs.Geometry.Outline
import SvgDisplayList.Proofs.PathData.Meaning

/-!
# Where the pen stands

The pen and the outline that it draws keep the position apart: the pen has a current point and the
start of its subpath, the outline has its open subpath and the point to reopen at.  Every step keeps
the two in agreement (`Pen.Aligned`), also a step behind a close, a repeated close, a move that
drops a subpath without segments, and an arc, which is one line or at most four curves and ends
exactly where it was asked to (`Pen.arcTo_eq`).

The subpaths that are returned are therefore the longest runs of drawing steps
(`PathData.exists_drawingRun`): each starts where the latest move before the run went and is closed
if a close follows the run.
-/

namespace SvgDisplayList

/-! ## The end of an outline -/

namespace Outline

variable (o : Outline)

/-- The outline ends where the last segment does. -/
lemma finish_draw (g : Segment) : (o.draw g).current.finish = g.finish := by
  simp [draw, current, Subpath.finish]

/-- Drawing segments leaves the point to reopen at where it is. -/
lemma anchor_foldl_draw (gs : List Segment) : (gs.foldl draw o).anchor = o.anchor := by
  induction gs generalizing o with
  | nil => rfl
  | cons g gs ih => exact ih (o.draw g)

/-- The outline ends where the last of several segments does. -/
lemma finish_foldl_draw (gs : List Segment) (g : Segment) :
    ((gs ++ [g]).foldl draw o).current.finish = g.finish := by
  rw [List.foldl_append]
  exact finish_draw _ g

/-- A closed outline ends at the point to reopen at. -/
lemma close_spec : o.close.current? = none ∧ o.close.anchor = o.anchor := by
  unfold close
  cases h : o.current? with
  | none => exact ⟨h, rfl⟩
  | some s => exact ⟨rfl, rfl⟩

end Outline

/-! ## Arcs -/

/-- The segment of a cubic curve. -/
def Cubic.segment (c : Cubic) : Segment := .cubic c.control₁ c.control₂ c.finish

/-- What an arc to a point is drawn as: one line to it, or one to four curves, of which the last one
ends in it. -/
inductive DrawsArc (p : Point) : List Segment → Prop where
  | line : DrawsArc p [.line p]
  | curves (front : List Cubic) (last : Cubic) (hcount : front.length ≤ 3)
      (hfinish : last.finish = p) : DrawsArc p ((front ++ [last]).map Cubic.segment)

/-- The last segment of an arc ends in its end point. -/
lemma DrawsArc.exists_last {p : Point} {gs : List Segment} (h : DrawsArc p gs) :
    ∃ front g, gs = front ++ [g] ∧ g.finish = p := by
  cases h with
  | line => exact ⟨[], .line p, rfl, rfl⟩
  | curves front last hcount hfinish =>
    exact ⟨front.map Cubic.segment, last.segment, List.map_append, hfinish⟩

namespace Pen

/-- An arc is drawn to its end point, where the pen then stands. -/
theorem arcTo_eq (pen : Pen) (shape : ArcShape) (p : Point) :
    ∃ gs, DrawsArc p gs ∧
      pen.arcTo shape p = ⟨gs.foldl Outline.draw pen.outline, p, pen.start, none, none⟩ := by
  unfold arcTo
  cases hcubics : shape.cubics? pen.current p with
  | none => exact ⟨[.line p], .line, rfl⟩
  | some cubics =>
    obtain ⟨-, hfour, front, last, rfl, hfinish⟩ := ArcShape.finish_of_cubics? hcubics
    rw [List.length_append, List.length_singleton] at hfour
    refine ⟨_, .curves front last (by omega) hfinish, ?_⟩
    rw [List.foldl_map]
    rfl

/-! ## Agreement of the pen with its outline -/

/-- The outline reopens where the subpath of the pen started, and ends where the pen stands. -/
structure Aligned (pen : Pen) : Prop where
  anchor : pen.outline.anchor = pen.start
  finish : pen.outline.current.finish = pen.current

/-- The pen is aligned before the first step. -/
lemma aligned_initial : initial.Aligned := ⟨rfl, rfl⟩

/-- Every step keeps the pen aligned. -/
lemma aligned_step {pen : Pen} (h : pen.Aligned) (s : Step) : (pen.step s).Aligned := by
  obtain ⟨relative, motion⟩ := s
  cases motion with
  | move p => exact ⟨rfl, rfl⟩
  | line | horizontal | vertical | cubic | smoothCubic | quadratic | smoothQuadratic =>
    exact ⟨h.anchor, Outline.finish_draw _ _⟩
  | arc shape p =>
    obtain ⟨gs, harc, heq⟩ := pen.arcTo_eq shape (pen.resolve relative p)
    obtain ⟨front, g, rfl, hfinish⟩ := harc.exists_last
    have hstep : pen.step ⟨relative, .arc shape p⟩ = pen.arcTo shape (pen.resolve relative p) := rfl
    rw [hstep, heq]
    exact ⟨(Outline.anchor_foldl_draw _ _).trans h.anchor,
      (Outline.finish_foldl_draw _ front g).trans hfinish⟩
  | close =>
    obtain ⟨hnone, hanchor⟩ := pen.outline.close_spec
    refine ⟨hanchor.trans h.anchor, ?_⟩
    change pen.outline.close.current.finish = pen.start
    rw [Outline.current, hnone]
    exact hanchor.trans h.anchor

/-- A list of steps keeps the pen aligned. -/
lemma aligned_run {pen : Pen} (h : pen.Aligned) (steps : List Step) : (pen.run steps).Aligned := by
  unfold run
  induction steps generalizing pen with
  | nil => exact h
  | cons s steps ih => exact ih (aligned_step h s)

/-- An open subpath ends where the pen stands. -/
lemma Aligned.current_of_open {pen : Pen} (h : pen.Aligned) {s : Subpath}
    (hopen : pen.outline.current? = some s) : pen.current = s.finish := by
  have hfinish := h.finish
  rw [Outline.current, hopen] at hfinish
  exact hfinish.symm

/-- Without an open subpath, the pen stands where its subpath started. -/
lemma Aligned.current_of_none {pen : Pen} (h : pen.Aligned)
    (hnone : pen.outline.current? = none) : pen.current = pen.start := by
  have hfinish := h.finish
  rw [Outline.current, hnone] at hfinish
  exact hfinish.symm.trans h.anchor

end Pen

/-! ## Runs of drawing steps -/

/-- Whether a step draws segments. -/
def Motion.draws : Motion → Bool
  | move _ | close => false
  | _ => true

namespace PathData

/-- The pen behind some steps, carried on by further ones. -/
lemma exists_run_penBehind (steps : List Step) (o : Outline) (earlier : List Step) :
    ∃ o', (penBehind o earlier).run steps = penBehind o' (steps.reverse ++ earlier) := by
  induction steps generalizing o earlier with
  | nil => exact ⟨o, rfl⟩
  | cons s steps ih =>
    obtain ⟨o', hrun⟩ := ih ((strokesOf earlier s).foldl Stroke.apply o) (s :: earlier)
    have hstep : (penBehind o earlier).run (s :: steps) =
        ((penBehind o earlier).step s).run steps := rfl
    refine ⟨o', ?_⟩
    rw [hstep, step_penBehind, hrun, List.reverse_cons, List.append_assoc, List.singleton_append]

/-- The subpath of the pen started where the last move went. -/
lemma start_run (steps : List Step) :
    (Pen.initial.run steps).start = lastMove steps.reverse := by
  obtain ⟨o, hrun⟩ := exists_run_penBehind steps .empty []
  have hinitial : Pen.initial = penBehind .empty [] := rfl
  rw [hinitial, hrun, List.append_nil]
  rfl

/-- A step that draws makes segments. -/
lemma exists_segments (earlier : List Step) {s : Step} (h : s.motion.draws = true) :
    ∃ g gs, strokesOf earlier s = (g :: gs).map .segment := by
  obtain ⟨relative, motion⟩ := s
  cases motion with
  | move | close => cases h
  | line | horizontal | vertical | cubic | smoothCubic | quadratic | smoothQuadratic =>
    exact ⟨_, [], rfl⟩
  | arc shape p =>
    unfold strokesOf
    dsimp only
    cases hcubics : shape.cubics? (position earlier)
        (position (⟨relative, .arc shape p⟩ :: earlier)) with
    | none => exact ⟨_, [], rfl⟩
    | some cubics =>
      obtain ⟨hone, -, -⟩ := ArcShape.finish_of_cubics? hcubics
      cases cubics with
      | nil => exact absurd hone (by decide)
      | cons c cs =>
        exact ⟨c.segment, cs.map Cubic.segment, by rw [← List.map_cons, List.map_map]; rfl⟩

/-- The strokes of two lists of steps. -/
lemma strokes_append (earlier steps more : List Step) :
    strokes earlier (steps ++ more) =
      strokes earlier steps ++ strokes (steps.reverse ++ earlier) more := by
  induction steps generalizing earlier with
  | nil => rfl
  | cons s steps ih =>
    rw [List.cons_append, strokes, strokes, ih, List.append_assoc, List.reverse_cons,
      List.append_assoc, List.singleton_append]

/-- The strokes of drawing steps are segments. -/
lemma strokes_of_draws {body : List Step} (h : ∀ s ∈ body, s.motion.draws = true)
    (earlier : List Step) :
    ∃ gs : List Segment, strokes earlier body = gs.map .segment ∧ (body ≠ [] → gs ≠ []) := by
  induction body generalizing earlier with
  | nil => exact ⟨[], rfl, fun hne => absurd rfl hne⟩
  | cons s body ih =>
    obtain ⟨g, gs, hfirst⟩ := exists_segments earlier (h s (List.mem_cons_self ..))
    obtain ⟨gs', hrest, -⟩ := ih (fun t ht => h t (List.mem_cons_of_mem s ht)) (s :: earlier)
    exact ⟨g :: gs ++ gs', by rw [strokes, hfirst, hrest, ← List.map_append], fun _ => by simp⟩

/-- Drawing steps do not change where the last move went. -/
lemma lastMove_of_draws {body : List Step} (h : ∀ s ∈ body, s.motion.draws = true)
    (earlier : List Step) : lastMove (body.reverse ++ earlier) = lastMove earlier := by
  induction body generalizing earlier with
  | nil => rfl
  | cons s body ih =>
    have hsame : lastMove (s :: earlier) = lastMove earlier := by
      have hdraws := h s (List.mem_cons_self ..)
      obtain ⟨relative, motion⟩ := s
      cases motion with
      | move => cases hdraws
      | _ => simp [lastMove]
    rw [List.reverse_cons, List.append_assoc, List.singleton_append,
      ih (fun t ht => h t (List.mem_cons_of_mem s ht)), hsame]

/-- The segments at the front of a list of strokes are its run. -/
lemma subpaths_segments (anchor : Point) {gs : List Segment} (hne : gs ≠ []) {rest : List Stroke}
    (hrest : run rest = [] ∧ behindRun rest = rest) :
    subpaths anchor (gs.map .segment ++ rest) =
      subpath anchor gs (closes rest) :: subpaths anchor rest := by
  have hrun : ∀ gs : List Segment, run (gs.map .segment ++ rest) = gs ∧
      behindRun (gs.map .segment ++ rest) = rest := by
    intro gs
    induction gs with
    | nil => exact hrest
    | cons g gs ih => exact ⟨congrArg (g :: ·) ih.1, ih.2⟩
  cases gs with
  | nil => exact absurd rfl hne
  | cons g gs => rw [List.map_cons, List.cons_append, subpaths, (hrun gs).1, (hrun gs).2]

/-- Strokes of steps of which the first does not draw begin with no segment, and with a close
exactly if the first step is one. -/
lemma strokes_of_not_draws {after : List Step} (h : ∀ s ∈ after.head?, s.motion.draws = false)
    (earlier : List Step) :
    (run (strokes earlier after) = [] ∧ behindRun (strokes earlier after) = strokes earlier after) ∧
      (closes (strokes earlier after) = true ↔ ∃ s ∈ after.head?, s.motion = .close) := by
  cases after with
  | nil => exact ⟨⟨rfl, rfl⟩, by simp [strokes, closes]⟩
  | cons s after =>
    have hdraws := h s rfl
    obtain ⟨relative, motion⟩ := s
    cases motion with
    | move p => exact ⟨⟨rfl, rfl⟩, by simp [strokes, strokesOf, closes]⟩
    | close => exact ⟨⟨rfl, rfl⟩, by simp [strokes, strokesOf, closes]⟩
    | line | horizontal | vertical | cubic | smoothCubic | quadratic | smoothQuadratic | arc =>
      cases hdraws

/-- A step that does not draw begins no subpath. -/
lemma subpaths_of_not_draws {s : Step} (h : s.motion.draws = false) (earlier steps : List Step) :
    subpaths (lastMove earlier) (strokes earlier (s :: steps)) =
      subpaths (lastMove (s :: earlier)) (strokes (s :: earlier) steps) := by
  obtain ⟨relative, motion⟩ := s
  cases motion with
  | move p => rw [strokes, strokesOf, List.singleton_append, subpaths]; rfl
  | close => rw [strokes, strokesOf, List.singleton_append, subpaths]; rfl
  | line | horizontal | vertical | cubic | smoothCubic | quadratic | smoothQuadratic | arc =>
    cases h

/-- A longest run of drawing steps in a list of steps, and what is before and after it. -/
structure DrawingRun (steps before body after : List Step) : Prop where
  split : steps = before ++ body ++ after
  ne : body ≠ []
  draws : ∀ s ∈ body, s.motion.draws = true
  left : ∀ s ∈ before.getLast?, s.motion.draws = false
  right : ∀ s ∈ after.head?, s.motion.draws = false

/-- A run behind further steps, the last of which does not draw if the run is right behind it. -/
lemma DrawingRun.prepend {steps before body after : List Step}
    (h : DrawingRun steps before body after) (front : List Step)
    (hfront : before = [] → ∀ s ∈ front.getLast?, s.motion.draws = false) :
    DrawingRun (front ++ steps) (front ++ before) body after where
  split := by rw [h.split, List.append_assoc, List.append_assoc, List.append_assoc]
  ne := h.ne
  draws := h.draws
  left := by
    cases before with
    | nil => rw [List.append_nil]; exact hfront rfl
    | cons b before =>
      rw [List.getLast?_append_of_ne_nil _ (List.cons_ne_nil b before)]
      exact h.left
  right := h.right

/-- A subpath is what a run of drawing steps draws: it starts where the latest move before the run
went, has the segments of the run, and is closed exactly if a close follows. -/
structure DrawnBy (s : Subpath) (earlier body after : List Step) : Prop where
  start : s.start = lastMove earlier
  segments : strokes earlier body = s.segments.toList.map .segment
  closed : s.closed = true ↔ ∃ z ∈ after.head?, z.motion = .close

/-- Steps of which the first one draws begin with a longest run. -/
lemma exists_split {t : Step} (ht : t.motion.draws = true) (rest : List Step) :
    ∃ body after, DrawingRun (t :: rest) [] (t :: body) after := by
  refine ⟨rest.takeWhile (·.motion.draws), rest.dropWhile (·.motion.draws), ?_, ?_, ?_, ?_, ?_⟩
  · rw [List.nil_append, List.cons_append, List.takeWhile_append_dropWhile]
  · exact List.cons_ne_nil _ _
  · intro s hs
    rcases List.mem_cons.mp hs with rfl | hs
    · exact ht
    · exact List.mem_takeWhile_imp (p := fun s : Step => s.motion.draws) hs
  · intro s hs
    cases hs
  · intro s hs
    have hfirst := List.head?_dropWhile_not (fun s : Step => s.motion.draws) rest
    rw [Option.mem_def.mp hs] at hfirst
    exact hfirst

/-- Every subpath is what a longest run of drawing steps draws. -/
theorem exists_drawingRun (steps earlier : List Step) {s : Subpath}
    (hs : s ∈ subpaths (lastMove earlier) (strokes earlier steps)) :
    ∃ before body after, DrawingRun steps before body after ∧
      DrawnBy s (before.reverse ++ earlier) body after := by
  induction hlength : steps.length using Nat.strong_induction_on generalizing steps earlier with
  | _ n ih =>
    cases steps with
    | nil => simp [strokes, subpaths] at hs
    | cons t rest =>
      rcases hdraws : t.motion.draws with _ | _
      · rw [subpaths_of_not_draws hdraws] at hs
        obtain ⟨before, body, after, hrun, hdrawn⟩ :=
          ih rest.length (by simp [← hlength]) rest (t :: earlier) hs rfl
        refine ⟨t :: before, body, after, hrun.prepend [t] fun _ u hu => ?_, ?_⟩
        · cases hu
          exact hdraws
        · rwa [List.reverse_cons, List.append_assoc, List.singleton_append]
      · -- the first subpath is that of the steps in front, and the others follow behind them
        obtain ⟨body, after, hfront⟩ := exists_split hdraws rest
        have hsplit : t :: rest = (t :: body) ++ after := hfront.split
        obtain ⟨gs, hsegments, hne⟩ := strokes_of_draws hfront.draws earlier
        obtain ⟨hbehind, hcloses⟩ :=
          strokes_of_not_draws hfront.right ((t :: body).reverse ++ earlier)
        rw [hsplit, strokes_append, hsegments, subpaths_segments _ (hne hfront.ne) hbehind] at hs
        rcases List.mem_cons.mp hs with rfl | hs
        · exact ⟨[], t :: body, after, hfront, rfl, hsegments, hcloses⟩
        · rw [← lastMove_of_draws hfront.draws earlier] at hs
          have hshorter : after.length < n := by
            rw [← hlength, hsplit, List.length_append, List.length_cons]
            omega
          obtain ⟨before, body', after', hrun, hdrawn⟩ := ih _ hshorter after _ hs rfl
          refine ⟨(t :: body) ++ before, body', after', hsplit ▸ hrun.prepend _ ?_, ?_⟩
          · -- the steps behind the run do not begin with another one
            rintro rfl
            obtain ⟨u, body'', rfl⟩ := List.exists_cons_of_ne_nil hrun.ne
            have hnot := hfront.right u (by rw [hrun.split]; rfl)
            rw [hrun.draws u (List.mem_cons_self ..)] at hnot
            cases hnot
          · rwa [List.reverse_append, List.append_assoc]

/-- The first step of accepted path data is a move. -/
lemma move_of_head? {d : String} {steps : List Step} (h : Step.ofPathData d = .ok steps) :
    ∀ s ∈ steps.head?, ∃ p, s.motion = .move p := by
  obtain ⟨is, hmove, -, rfl⟩ := ofPathData_steps_iff.mp h
  cases is with
  | nil => intro s hs; cases hs
  | cons i is =>
    intro s hs
    have hfirst : s = ⟨i.relative, i.first.motion⟩ := (Option.some.inj hs).symm
    have hcommand := hmove i rfl
    rw [hfirst]
    cases hset : i.first with
    | move p => exact ⟨p.point, rfl⟩
    | _ => rw [hset] at hcommand; cases hcommand

/-- A run of drawing steps of accepted path data has a move before it. -/
lemma DrawingRun.exists_move {d : String} {steps before body after : List Step}
    (h : DrawingRun steps before body after) (hsteps : Step.ofPathData d = .ok steps) :
    ∃ s ∈ before, ∃ p, s.motion = .move p := by
  cases before with
  | nil =>
    obtain ⟨s, body, rfl⟩ := List.exists_cons_of_ne_nil h.ne
    obtain ⟨p, hp⟩ := move_of_head? hsteps s (by rw [h.split]; rfl)
    have hdraws := h.draws s (List.mem_cons_self ..)
    rw [hp] at hdraws
    cases hdraws
  | cons s before =>
    exact ⟨s, List.mem_cons_self .., move_of_head? hsteps s (by rw [h.split]; rfl)⟩

/-- Accepted path data is what has been read, and the pen draws it. -/
lemma steps_of_ofPathData {d : String} {drawn : List Subpath}
    (h : Subpath.ofPathData d = .ok drawn) :
    Step.ofPathData d = .ok (read d.toList).steps ∧ drawn = Step.draw (read d.toList).steps := by
  unfold Subpath.ofPathData Step.ofPathData Reading.result at h
  unfold Step.ofPathData Reading.result
  cases herror : (read d.toList).error? with
  | some e => rw [herror] at h; cases h
  | none => rw [herror] at h; exact ⟨rfl, (Except.ok.inj h).symm⟩

/-- After every step of a text, also of one that is not accepted, the outline reopens where the
subpath of the pen started, which is where the latest move went; the pen stands at the end of the
open subpath, and at its start if none is open.  Every arc is drawn as one line to its end point or
as one to four curves of which the last one ends in it.  Every subpath of an accepted text has
segments, is what a longest run of drawing steps behind a move draws, starts where the latest move
before the run went, and is closed exactly if a close ends the run. -/
theorem ofPathData_pen (d : String) :
    (∀ n, let done := (read d.toList).steps.take n
      let pen := Pen.initial.run done
      pen.outline.anchor = pen.start ∧ pen.start = lastMove done.reverse ∧
        (∀ s, pen.outline.current? = some s → pen.current = s.finish) ∧
        (pen.outline.current? = none → pen.current = pen.start)) ∧
    (∀ before relative shape p after,
      (read d.toList).steps = before ++ ⟨relative, .arc shape p⟩ :: after →
      let pen := Pen.initial.run before
      let pen' := Pen.initial.run (before ++ [⟨relative, .arc shape p⟩])
      pen'.current = pen.resolve relative p ∧
        ∃ gs, DrawsArc (pen.resolve relative p) gs ∧
          pen'.outline = gs.foldl Outline.draw pen.outline) ∧
    ∀ drawn, Subpath.ofPathData d = .ok drawn → ∀ s ∈ drawn, s.segments ≠ #[] ∧
      ∃ before body after, DrawingRun (read d.toList).steps before body after ∧
        (∃ t ∈ before, ∃ p, t.motion = .move p) ∧ DrawnBy s before.reverse body after := by
  refine ⟨fun n => ?_, fun before relative shape p after _ => ?_, fun drawn hdrawn s hs => ?_⟩
  · have haligned := Pen.aligned_run Pen.aligned_initial ((read d.toList).steps.take n)
    exact ⟨haligned.anchor, start_run _, fun s => haligned.current_of_open,
      haligned.current_of_none⟩
  · obtain ⟨gs, harc, heq⟩ := (Pen.initial.run before).arcTo_eq shape
      ((Pen.initial.run before).resolve relative p)
    have hstep : Pen.initial.run (before ++ [⟨relative, .arc shape p⟩]) =
        (Pen.initial.run before).arcTo shape ((Pen.initial.run before).resolve relative p) := by
      rw [Pen.run, List.foldl_append]
      rfl
    dsimp only
    rw [hstep, heq]
    exact ⟨rfl, gs, harc, rfl⟩
  · obtain ⟨hsteps, rfl⟩ := steps_of_ofPathData hdrawn
    refine ⟨Step.segments_ne_of_mem_draw _ s hs, ?_⟩
    rw [draw_eq_interpret] at hs
    obtain ⟨before, body, after, hrun, hdrawnBy⟩ := exists_drawingRun _ [] hs
    rw [List.append_nil] at hdrawnBy
    exact ⟨before, body, after, hrun, hrun.exists_move hsteps, hdrawnBy⟩

/-- A text in which an arc is closed and a relative line follows. -/
def reopenedText : String := "M1 2A1 1 0 0 1 3 4zl1 0"

/-- Behind the close the pen stands at the start again, the arc ends in `(3, 4)`, and there are two
subpaths. -/
theorem ofPathData_pen_reopened :
    ((Pen.initial.run ((read reopenedText.toList).steps.take 3)).outline.current? = none ∧
      (Pen.initial.run ((read reopenedText.toList).steps.take 3)).current =
        (Pen.initial.run ((read reopenedText.toList).steps.take 3)).start) ∧
    ((read reopenedText.toList).steps = [⟨false, .move ⟨1, 2⟩⟩] ++
        ⟨false, .arc ⟨1, 1, 0, false, true⟩ ⟨3, 4⟩⟩ :: [⟨true, .close⟩, ⟨true, .line ⟨1, 0⟩⟩] ∧
      ∃ gs, DrawsArc ⟨3, 4⟩ gs ∧
        (Pen.initial.run [⟨false, .move ⟨1, 2⟩⟩,
          ⟨false, .arc ⟨1, 1, 0, false, true⟩ ⟨3, 4⟩⟩]).outline =
          gs.foldl Outline.draw (Outline.empty.moveTo ⟨1, 2⟩)) ∧
    ∃ drawn, Subpath.ofPathData reopenedText = .ok drawn ∧ drawn.length = 2 ∧
      ∀ s ∈ drawn, ∃ before body after,
        DrawingRun (read reopenedText.toList).steps before body after ∧
          DrawnBy s before.reverse body after := by
  obtain ⟨hpen, harc, hdrawn⟩ := ofPathData_pen reopenedText
  have hsteps : (read reopenedText.toList).steps = [⟨false, .move ⟨1, 2⟩⟩] ++
      ⟨false, .arc ⟨1, 1, 0, false, true⟩ ⟨3, 4⟩⟩ ::
        [⟨true, .close⟩, ⟨true, .line ⟨1, 0⟩⟩] := rfl
  have hread : Subpath.ofPathData reopenedText =
      .ok (Step.draw (read reopenedText.toList).steps) := rfl
  have hnone : (Pen.initial.run ((read reopenedText.toList).steps.take 3)).outline.current? =
      none := Option.isNone_iff_eq_none.mp (by decide +kernel)
  obtain ⟨-, gs, hgs, houtline⟩ := harc _ _ _ _ _ hsteps
  refine ⟨⟨hnone, (hpen 3).2.2.2 hnone⟩, ⟨hsteps, gs, hgs, houtline⟩, _, hread,
    by decide +kernel, fun s hs => ?_⟩
  obtain ⟨-, before, body, after, hrun, -, hdrawnBy⟩ := hdrawn _ hread s hs
  exact ⟨before, body, after, hrun, hdrawnBy⟩

end PathData

end SvgDisplayList
