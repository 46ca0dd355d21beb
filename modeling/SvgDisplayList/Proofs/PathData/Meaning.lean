import SvgDisplayList.Proofs.PathData.Reading

/-!
# What path data draws

The meaning of a list of steps is given without a pen.  Where a step starts from, where the last
move went and which control point a smooth step mirrors are read off the steps before it
(`PathData.position`, `PathData.lastMove`, `PathData.cubicControl?`, `PathData.quadraticControl?`).
A step makes strokes, and each run of segments among the strokes is a subpath, which starts where
the last move went and is closed if a close follows (`PathData.subpaths`).

The pen draws what the steps mean (`draw_eq_interpret`), so that reading path data and drawing it is
interpreting the instructions that the text writes down (`ofPathData_iff`).
-/

namespace SvgDisplayList

namespace PathData

/-! ## The steps before a step

Steps that have been carried out are listed with the latest one first. -/

/-- The point that an argument pair of a step means, seen from the current point. -/
def absolute (relative : Bool) (current p : Point) : Point :=
  if relative then ⟨current.x + p.x, current.y + p.y⟩ else p

mutual

/-- The current point behind a list of steps. -/
def position : List Step → Point
  | [] => .origin
  | s :: earlier =>
    match s.motion with
    | .move p | .line p | .cubic _ _ p | .smoothCubic _ p | .quadratic _ p | .smoothQuadratic p
    | .arc _ p => absolute s.relative (position earlier) p
    | .horizontal x =>
      ⟨if s.relative then (position earlier).x + x else x, (position earlier).y⟩
    | .vertical y =>
      ⟨(position earlier).x, if s.relative then (position earlier).y + y else y⟩
    | .close => lastMove earlier

/-- The point that the last move went to. -/
def lastMove : List Step → Point
  | [] => .origin
  | s :: earlier =>
    match s.motion with
    | .move p => absolute s.relative (position earlier) p
    | _ => lastMove earlier

end

/-- The mirror image of a control point, or the centre if there is none. -/
def mirrored (control? : Option Point) (center : Point) : Point :=
  match control? with
  | some p => ⟨2 * center.x - p.x, 2 * center.y - p.y⟩
  | none => center

/-- The second control point of the last step, if that was a cubic curve. -/
def cubicControl? : List Step → Option Point
  | [] => none
  | s :: earlier =>
    match s.motion with
    | .cubic _ q _ | .smoothCubic q _ => some (absolute s.relative (position earlier) q)
    | _ => none

/-- The control point of the last step, if that was a quadratic curve.  The control point of a
smooth curve is the mirror image of the one before it. -/
def quadraticControl? : List Step → Option Point
  | [] => none
  | s :: earlier =>
    match s.motion with
    | .quadratic c _ => some (absolute s.relative (position earlier) c)
    | .smoothQuadratic _ => some (mirrored (quadraticControl? earlier) (position earlier))
    | _ => none

/-! ## Strokes -/

/-- A move, a segment, or the end of a closed subpath. -/
inductive Stroke where
  | move (to_ : Point)
  | segment (g : Segment)
  | close

/-- The segment of a cubic curve. -/
def Stroke.cubic (c : Cubic) : Stroke := .segment (.cubic c.control₁ c.control₂ c.finish)

/-- The segment of a quadratic curve.  It is a cubic one, whose control points lie on two thirds of
the way from its ends to the control point. -/
def Stroke.quadratic (start control finish : Point) : Stroke :=
  let third : Float32 := 2 / 3
  .segment (.cubic
    ⟨start.x + third * (control.x - start.x), start.y + third * (control.y - start.y)⟩
    ⟨finish.x + third * (control.x - finish.x), finish.y + third * (control.y - finish.y)⟩ finish)

/-- The strokes of one step. -/
def strokesOf (earlier : List Step) (s : Step) : List Stroke :=
  let start := position earlier
  let finish := position (s :: earlier)
  match s.motion with
  | .move _ => [.move finish]
  | .line _ | .horizontal _ | .vertical _ => [.segment (.line finish)]
  | .cubic p q _ =>
    [.segment (.cubic (absolute s.relative start p) (absolute s.relative start q) finish)]
  | .smoothCubic q _ =>
    let control := mirrored (cubicControl? earlier) start
    [.segment (.cubic control (absolute s.relative start q) finish)]
  | .quadratic c _ => [.quadratic start (absolute s.relative start c) finish]
  | .smoothQuadratic _ => [.quadratic start (mirrored (quadraticControl? earlier) start) finish]
  | .arc shape _ =>
    match shape.cubics? start finish with
    | some cubics => cubics.map .cubic
    | none => [.segment (.line finish)]
  | .close => [.close]

/-- The strokes of a list of steps. -/
def strokes (earlier : List Step) : List Step → List Stroke
  | [] => []
  | s :: steps => strokesOf earlier s ++ strokes (s :: earlier) steps

/-! ## Subpaths -/

/-- The segments at the front of a list of strokes. -/
def run : List Stroke → List Segment
  | .segment g :: rest => g :: run rest
  | _ => []

/-- The strokes behind the segments at the front. -/
def behindRun : List Stroke → List Stroke
  | .segment _ :: rest => behindRun rest
  | strokes => strokes

/-- Whether a list of strokes begins with a close. -/
def closes : List Stroke → Bool
  | .close :: _ => true
  | _ => false

/-- The strokes behind a run are not more. -/
lemma length_behindRun_le (strokes : List Stroke) :
    (behindRun strokes).length ≤ strokes.length := by
  induction strokes with
  | nil => exact Nat.le_refl _
  | cons stroke rest ih =>
    cases stroke with
    | segment g => exact Nat.le_succ_of_le ih
    | move p => exact Nat.le_refl _
    | close => exact Nat.le_refl _

/-- The subpath of a run of segments. -/
def subpath (anchor : Point) (segments : List Segment) (closed : Bool) : Subpath :=
  ⟨anchor, segments.toArray, closed⟩

/-- The subpaths of a list of strokes, one for each run of segments, where the last move went to
`anchor`. -/
def subpaths (anchor : Point) : List Stroke → List Subpath
  | [] => []
  | .move p :: rest => subpaths p rest
  | .close :: rest => subpaths anchor rest
  | .segment g :: rest =>
    subpath anchor (g :: run rest) (closes (behindRun rest)) :: subpaths anchor (behindRun rest)
  termination_by strokes => strokes.length
  decreasing_by
    · exact Nat.lt_succ_self _
    · exact Nat.lt_succ_self _
    · exact Nat.lt_succ_of_le (length_behindRun_le rest)

/-- What a list of steps draws. -/
def interpret (steps : List Step) : List Subpath := subpaths .origin (strokes [] steps)

/-! ## The pen -/

/-- What a stroke does to an outline. -/
def Stroke.apply (o : Outline) : Stroke → Outline
  | move p => o.moveTo p
  | segment g => o.draw g
  | close => o.close

/-- The pen behind a list of steps with the outline drawn so far. -/
def penBehind (o : Outline) (earlier : List Step) : Pen where
  outline := o
  current := position earlier
  start := lastMove earlier
  cubicControl? := cubicControl? earlier
  quadraticControl? := quadraticControl? earlier

/-- Cubic curves are drawn as strokes. -/
lemma foldl_cubicTo (cubics : List Cubic) (o : Outline) :
    cubics.foldl (fun o c => o.cubicTo c.control₁ c.control₂ c.finish) o =
      (cubics.map Stroke.cubic).foldl Stroke.apply o := by
  rw [List.foldl_map]
  rfl

/-- One step of the pen makes the strokes of the step. -/
lemma step_penBehind (o : Outline) (earlier : List Step) (s : Step) :
    (penBehind o earlier).step s =
      penBehind ((strokesOf earlier s).foldl Stroke.apply o) (s :: earlier) := by
  obtain ⟨relative, motion⟩ := s
  cases motion with
  | arc shape p =>
    have harc : (penBehind o earlier).step ⟨relative, .arc shape p⟩ =
        (penBehind o earlier).arcTo shape (absolute relative (position earlier) p) := rfl
    have hcurrent : (penBehind o earlier).current = position earlier := rfl
    have hfinish : position (⟨relative, .arc shape p⟩ :: earlier) =
        absolute relative (position earlier) p := rfl
    rw [harc]
    unfold Pen.arcTo strokesOf
    simp only [hcurrent, hfinish]
    cases shape.cubics? (position earlier) (absolute relative (position earlier) p) with
    | none => rfl
    | some cubics =>
      dsimp only
      rw [foldl_cubicTo]
      rfl
  | _ => rfl

/-- The pen makes the strokes of the steps. -/
lemma run_penBehind (steps : List Step) (o : Outline) (earlier : List Step) :
    ((penBehind o earlier).run steps).outline = (strokes earlier steps).foldl Stroke.apply o := by
  induction steps generalizing o earlier with
  | nil => rfl
  | cons s steps ih =>
    have hstep : (penBehind o earlier).run (s :: steps) =
        ((penBehind o earlier).step s).run steps := rfl
    rw [hstep, step_penBehind, ih, strokes, List.foldl_append]

/-! ## The outline -/

/-- The subpath of some segments, if there are any. -/
def kept (anchor : Point) (segments : List Segment) (closed : Bool) : List Subpath :=
  if segments = [] then [] else [subpath anchor segments closed]

/-- The subpaths of a list of strokes behind a run of segments that has begun. -/
def continued (anchor : Point) (segments : List Segment) (strokes : List Stroke) : List Subpath :=
  if segments = [] then subpaths anchor strokes
  else subpath anchor (segments ++ run strokes) (closes (behindRun strokes)) ::
    subpaths anchor (behindRun strokes)

section

variable {anchor : Point} {segments : List Segment} {rest : List Stroke}

/-- A run of segments ends with the strokes. -/
lemma continued_nil : continued anchor segments [] = kept anchor segments false := by
  simp [continued, kept, subpaths, run, behindRun, closes]

/-- A segment lengthens the run. -/
lemma continued_segment {g : Segment} :
    continued anchor segments (.segment g :: rest) = continued anchor (segments ++ [g]) rest := by
  by_cases hnil : segments = []
  · simp [continued, hnil, subpaths]
  · simp [continued, hnil, run, behindRun]

/-- A move ends the run and leaves it open. -/
lemma continued_move {p : Point} :
    continued anchor segments (.move p :: rest) =
      kept anchor segments false ++ subpaths p rest := by
  by_cases hnil : segments = []
  · simp [continued, kept, hnil, subpaths]
  · simp [continued, kept, hnil, run, behindRun, closes, subpaths]

/-- A close ends the run and closes it. -/
lemma continued_close :
    continued anchor segments (.close :: rest) =
      kept anchor segments true ++ subpaths anchor rest := by
  by_cases hnil : segments = []
  · simp [continued, kept, hnil, subpaths]
  · simp [continued, kept, hnil, run, behindRun, closes, subpaths]

/-- A subpath is finished if it has a segment. -/
lemma keep_subpath {done : Array Subpath} {closed : Bool} :
    (Outline.keep done (subpath anchor segments closed)).toList =
      done.toList ++ kept anchor segments closed := by
  unfold Outline.keep kept
  cases segments with
  | nil => simp [subpath]
  | cons g gs => simp [subpath]

end

/-- The outline of some strokes has the subpaths of their runs, both where a subpath is open and
where none is. -/
lemma subpaths_foldl_apply (strokes : List Stroke) :
    (∀ done anchor segments,
      (strokes.foldl Stroke.apply ⟨done, some (subpath anchor segments false), anchor⟩).subpaths =
        done.toList ++ continued anchor segments strokes) ∧
    ∀ done anchor, (strokes.foldl Stroke.apply ⟨done, none, anchor⟩).subpaths =
      done.toList ++ subpaths anchor strokes := by
  induction strokes with
  | nil =>
    constructor
    · intro done anchor segments
      rw [continued_nil]
      exact keep_subpath
    · intro done anchor
      rw [subpaths, List.append_nil]
      rfl
  | cons stroke rest ih =>
    obtain ⟨ihOpen, ihNone⟩ := ih
    have hopened : ∀ p, Subpath.opened p = subpath p [] false := fun _ => rfl
    have hcontinued : ∀ anchor, continued anchor [] rest = subpaths anchor rest := by
      intro anchor
      simp [continued]
    cases stroke with
    | move p =>
      constructor
      · intro done anchor segments
        have happly : Stroke.apply ⟨done, some (subpath anchor segments false), anchor⟩ (.move p) =
            ⟨Outline.keep done (subpath anchor segments false), some (subpath p [] false), p⟩ := rfl
        rw [List.foldl_cons, happly, ihOpen, keep_subpath, hcontinued, continued_move,
          List.append_assoc]
      · intro done anchor
        have happly : Stroke.apply ⟨done, none, anchor⟩ (.move p) =
            ⟨done, some (subpath p [] false), p⟩ := rfl
        rw [List.foldl_cons, happly, ihOpen, hcontinued, subpaths]
    | segment g =>
      constructor
      · intro done anchor segments
        have happly :
            Stroke.apply ⟨done, some (subpath anchor segments false), anchor⟩ (.segment g) =
            ⟨done, some (subpath anchor (segments ++ [g]) false), anchor⟩ := by
          simp [Stroke.apply, Outline.draw, Outline.current, subpath]
        rw [List.foldl_cons, happly, ihOpen, continued_segment]
      · intro done anchor
        have happly : Stroke.apply ⟨done, none, anchor⟩ (.segment g) =
            ⟨done, some (subpath anchor [g] false), anchor⟩ := rfl
        have hsegment : continued anchor [] (.segment g :: rest) = continued anchor [g] rest :=
          continued_segment
        rw [List.foldl_cons, happly, ihOpen, ← hsegment]
        simp [continued]
    | close =>
      constructor
      · intro done anchor segments
        have happly : Stroke.apply ⟨done, some (subpath anchor segments false), anchor⟩ .close =
            ⟨Outline.keep done (subpath anchor segments true), none, anchor⟩ := rfl
        rw [List.foldl_cons, happly, ihNone, keep_subpath, continued_close, List.append_assoc]
      · intro done anchor
        have happly : Stroke.apply ⟨done, none, anchor⟩ .close = ⟨done, none, anchor⟩ := rfl
        rw [List.foldl_cons, happly, ihNone, subpaths]

/-! ## Meaning -/

/-- The pen draws what the steps mean. -/
theorem draw_eq_interpret (steps : List Step) : Step.draw steps = interpret steps := by
  have hrun : (Pen.initial.run steps).outline = (strokes [] steps).foldl Stroke.apply .empty :=
    run_penBehind steps .empty []
  have hsubpaths := (subpaths_foldl_apply (strokes [] steps)).2 #[] .origin
  unfold Step.draw
  rw [hrun]
  exact hsubpaths

/-- Reading and drawing path data is interpreting the instructions that it writes down. -/
theorem ofPathData_iff {d : String} {drawn : List Subpath} :
    Subpath.ofPathData d = .ok drawn ↔
      ∃ is : List Instruction, StartsWithMove is ∧
        Written (is.flatMap Instruction.tokens) d.toList ∧
        drawn = interpret (is.flatMap Instruction.steps) := by
  have hmap : Subpath.ofPathData d = .ok drawn ↔
      ∃ steps, Step.ofPathData d = .ok steps ∧ Step.draw steps = drawn := by
    unfold Subpath.ofPathData
    cases Step.ofPathData d <;> simp [Except.map]
  rw [hmap]
  constructor
  · rintro ⟨steps, hsteps, rfl⟩
    obtain ⟨is, hmove, hwritten, rfl⟩ := ofPathData_steps_iff.mp hsteps
    exact ⟨is, hmove, hwritten, draw_eq_interpret _⟩
  · rintro ⟨is, hmove, hwritten, rfl⟩
    exact ⟨_, ofPathData_steps_iff.mpr ⟨is, hmove, hwritten, rfl⟩, draw_eq_interpret _⟩

/-- Instructions whose numbers are kept apart from following arguments by separators are accepted,
and mean what the interpreter says.  What is accepted is written instructions, in which separators
may be missing where a number ends without one, and means what those mean. -/
theorem ofPathData_grammar :
    (∀ (d : String) (is : List Instruction), StartsWithMove is →
      Spaced (is.flatMap Instruction.tokens) d.toList →
      Subpath.ofPathData d = .ok (interpret (is.flatMap Instruction.steps))) ∧
    ∀ (d : String) (drawn : List Subpath), Subpath.ofPathData d = .ok drawn ↔
      ∃ is : List Instruction, StartsWithMove is ∧
        Written (is.flatMap Instruction.tokens) d.toList ∧
        drawn = interpret (is.flatMap Instruction.steps) := by
  constructor
  · intro d is hmove hspaced
    exact ofPathData_iff.mpr ⟨is, hmove, hspaced.written, rfl⟩
  · intro d drawn
    exact ofPathData_iff

/-- A number of one digit. -/
def digitNumber (d : Fin 10) : Number where
  numeral :=
    { sign := .none
      whole := [Nat.digitChar d]
      fraction? := none
      exponent? := none
      isDigit_whole := by
        have hdigit : ∀ d : Fin 10, Decimal.isDigit (Nat.digitChar d) = true := by decide
        simp [hdigit]
      isDigit_fraction := by simp
      hasDigit := Or.inl (by simp) }
  isFinite := by
    revert d
    decide +kernel

/-- A relative move by `(1, 2)` that goes on by `(3, 4)`, and a close. -/
def wedge : List Instruction :=
  [{ relative := true
     first := .move ⟨digitNumber 1, digitNumber 2⟩
     more := [.line ⟨digitNumber 3, digitNumber 4⟩]
     command_more := by simp [ArgumentSet.command, Command.repeated]
     more_of_close := by simp [ArgumentSet.command] },
   .single true .close]

/-- The wedge is written down with separators between its numbers only. -/
lemma spaced_wedge : Spaced (wedge.flatMap Instruction.tokens) "m1 2,3 4z".toList := by
  have hnone : IsGap [] := by simp [IsGap]
  have hspace : IsGap [' '] := by simp [IsGap, isSeparator]
  have hcomma : IsGap [','] := by simp [IsGap, isSeparator]
  have hclose : Spaced [.letter .close true] ['z'] :=
    .cons hnone (by simp [Token.isNumber]) (.nil hnone)
  have hfour := Spaced.cons (t := .argument (.number (digitNumber 4))) hspace
    (by simp [Token.isArgument]) hclose
  have hthree := Spaced.cons (t := .argument (.number (digitNumber 3))) hcomma
    (fun _ _ => ⟨' ', rfl, rfl⟩) hfour
  have htwo := Spaced.cons (t := .argument (.number (digitNumber 2))) hspace
    (fun _ _ => ⟨',', rfl, rfl⟩) hthree
  have hone := Spaced.cons (t := .argument (.number (digitNumber 1))) hnone
    (fun _ _ => ⟨' ', rfl, rfl⟩) htwo
  exact Spaced.cons (t := .letter .move true) hnone (by simp [Token.isNumber]) hone

/-- The wedge is drawn as one closed line from `(1, 2)` to `(4, 6)`. -/
theorem ofPathData_grammar_wedge :
    StartsWithMove wedge ∧ Spaced (wedge.flatMap Instruction.tokens) "m1 2,3 4z".toList ∧
      Subpath.ofPathData "m1 2,3 4z" = .ok [subpath ⟨1, 2⟩ [.line ⟨4, 6⟩] true] := by
  have hmove : StartsWithMove wedge := by
    intro i hi
    cases hi
    rfl
  have hread := ofPathData_grammar.1 "m1 2,3 4z" wedge hmove spaced_wedge
  have hstrokes : strokes [] (wedge.flatMap Instruction.steps) =
      [.move ⟨1, 2⟩, .segment (.line ⟨4, 6⟩), .close] := rfl
  have hdrawn : interpret (wedge.flatMap Instruction.steps) =
      [subpath ⟨1, 2⟩ [.line ⟨4, 6⟩] true] := by
    unfold interpret
    rw [hstrokes]
    simp [subpaths, run, behindRun, closes]
  rw [hdrawn] at hread
  exact ⟨hmove, spaced_wedge, hread⟩

end PathData

end SvgDisplayList
