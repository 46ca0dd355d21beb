import SvgDisplayList.Proofs.Number.Bounds
import SvgDisplayList.Proofs.PathData.Words
import SvgDisplayList.Scene.ShapeOutline

/-!
# Simple shapes as path data

Lines, polylines, polygons and rectangles with square corners are drawn as path data would draw
them (`Shape.subpaths_eq_ofPathData`).  The path data of a polyline has the words of its list of
points behind a letter; for the other shapes it has the coordinates, in any decimals that are read
as these.

A list of points is cut into words before its numbers are read, path data while they are read.  That
both find the same numbers is shown on the words: each of them is a numeral
(`Shape.exists_coordinates`).
-/

namespace SvgDisplayList

open PathData

namespace Shape

/-! ## Points in words -/

/-- The words of a list of points. -/
def pointWords (raw : String) : List String :=
  (Text.words isListSeparator raw.toList).map String.ofList

/-- The number of points that words make; a last odd word makes none. -/
def pointCount (ws : List String) : Nat := ws.length / 2

/-- Path data that moves to the first of the points and draws lines to the others. -/
def linesText (ws : List String) : String := Text.join " " ("M" :: ws.take (2 * pointCount ws))

/-- Words that are read as numbers are, two by two, the coordinates of points. -/
lemma exists_coordinates : ∀ {ws : List (List Char)} {xs : List Float32},
    ws.mapM finiteNumber? = some xs → ∃ ps : List Coordinates, ps.map Coordinates.point = pairs xs ∧
      (ps.flatMap Coordinates.arguments).map Argument.chars = ws.take (2 * (ws.length / 2)) ∧
      ps.length = ws.length / 2
  | [], xs, h => by
    cases h
    exact ⟨[], rfl, rfl, rfl⟩
  | [w], xs, h => by
    simp only [List.mapM_cons, List.mapM_nil, Option.bind_eq_bind, Option.bind_eq_some_iff,
      Option.pure_def, Option.some.injEq] at h
    obtain ⟨x, -, -, rfl, rfl⟩ := h
    exact ⟨[], rfl, by simp, by simp⟩
  | w :: u :: ws, xs, h => by
    simp only [List.mapM_cons, Option.bind_eq_bind, Option.bind_eq_some_iff, Option.pure_def,
      Option.some.injEq] at h
    obtain ⟨x, hx, -, ⟨y, hy, ys, hys, rfl⟩, rfl⟩ := h
    obtain ⟨ps, hpoints, hchars, hlength⟩ := exists_coordinates hys
    obtain ⟨m, hm, rfl⟩ := exists_number_of_finiteNumber? hx
    obtain ⟨n, hn, rfl⟩ := exists_number_of_finiteNumber? hy
    have hcount : (w :: u :: ws).length / 2 = ws.length / 2 + 1 := by
      simp only [List.length_cons]
      omega
    refine ⟨⟨m, n⟩ :: ps, ?_, ?_, ?_⟩
    · rw [List.map_cons, hpoints]
      rfl
    · have htake : 2 * (ws.length / 2 + 1) = 2 * (ws.length / 2) + 1 + 1 := by omega
      rw [hcount, htake, List.take_succ_cons, List.take_succ_cons, ← hchars, ← hm, ← hn]
      rfl
    · rw [hcount, List.length_cons, hlength]

/-- A move to a point and lines to others. -/
def linesThrough (p : Coordinates) (ps : List Coordinates) : Instruction where
  relative := false
  first := .move p
  more := ps.map .line
  command_more := by simp [ArgumentSet.command, Command.repeated]
  more_of_close h := by cases h

/-- A move and lines in words. -/
lemma text_linesThrough (p : Coordinates) (ps : List Coordinates) :
    (linesThrough p ps).tokens.map Token.text =
      "M" :: (((p :: ps).flatMap Coordinates.arguments).map Argument.chars).map String.ofList := by
  have hsets : (linesThrough p ps).sets.flatMap ArgumentSet.arguments =
      (p :: ps).flatMap Coordinates.arguments := by
    change p.arguments ++ (ps.map ArgumentSet.line).flatMap ArgumentSet.arguments = _
    rw [List.flatMap_map]
    rfl
  unfold Instruction.tokens Token.ofSets
  rw [hsets, List.map_cons, List.map_map, List.map_map]
  rfl

/-- A pen that draws lines draws them on its outline. -/
lemma outline_run_line (ps : List Coordinates) (pen : Pen) :
    (pen.run (ps.map fun p => ⟨false, .line p.point⟩)).outline =
      (ps.map Coordinates.point).foldl Outline.lineTo pen.outline := by
  induction ps generalizing pen with
  | nil => rfl
  | cons p ps ih => exact ih (pen.lineTo p.point)

/-- A move and lines are drawn through the points. -/
lemma outline_linesThrough (p : Coordinates) (ps : List Coordinates) :
    (Pen.initial.run (linesThrough p ps).steps).outline =
      through ((p :: ps).map Coordinates.point) := by
  have hsteps : (linesThrough p ps).steps =
      ⟨false, .move p.point⟩ :: ps.map fun p => ⟨false, .line p.point⟩ := by
    change _ :: (ps.map ArgumentSet.line).map _ = _
    rw [List.map_map]
    rfl
  rw [hsteps]
  exact outline_run_line ps (Pen.initial.step ⟨false, .move p.point⟩)

/-- A list of points of which there is one is drawn as a move and lines. -/
lemma exists_linesThrough {raw : String} {xs : List Float32}
    (hxs : numberList? raw.toList = some xs) (hcount : pointCount (pointWords raw) ≠ 0) :
    ∃ i : Instruction, i.first.command = .move ∧
      linesText (pointWords raw) = Text.join " " (i.tokens.map Token.text) ∧
      (Pen.initial.run i.steps).outline = through (pairs xs) := by
  obtain ⟨ps, hpoints, hchars, hlength⟩ := exists_coordinates hxs
  unfold pointCount pointWords at hcount
  rw [List.length_map, ← hlength] at hcount
  cases ps with
  | nil => exact absurd rfl hcount
  | cons p ps =>
    refine ⟨linesThrough p ps, rfl, ?_, ?_⟩
    · rw [text_linesThrough, hchars, linesText, pointCount, pointWords, List.length_map,
        List.map_take]
    · rw [outline_linesThrough, hpoints]

/-- Where no two words stand for a point, there is none. -/
lemma pairs_eq_nil {raw : String} {xs : List Float32}
    (hxs : numberList? raw.toList = some xs) (hcount : pointCount (pointWords raw) = 0) :
    pairs xs = [] := by
  obtain ⟨ps, hpoints, -, hlength⟩ := exists_coordinates hxs
  unfold pointCount pointWords at hcount
  rw [List.length_map, ← hlength] at hcount
  rw [← hpoints, List.length_eq_zero_iff.mp hcount]
  rfl

/-! ## Shapes -/

/-- A text is a decimal of a number: it is read as that number. -/
def IsDecimalOf (t : String) (x : Float32) : Prop := finiteNumber? t.toList = some x

/-- A shape is accepted and drawn as path data draws it. -/
def IsDrawnAs (shape : Shape) (tag : Xml.Tag) (sizes : ReferenceSizes) (d : String) : Prop :=
  ∃ drawn, shape.subpaths tag sizes = .ok drawn ∧ Subpath.ofPathData d = .ok drawn

/-- Two decimals are the words of a pair of coordinates. -/
def HasWords (p : Coordinates) (t u : String) : Prop :=
  p.arguments.map (fun a => (Token.argument a).text) = [t, u]

/-- Two decimals are the words of a pair of coordinates with their numbers. -/
lemma exists_hasWords {t u : String} {x y : Float32} (ht : IsDecimalOf t x)
    (hu : IsDecimalOf u y) : ∃ p : Coordinates, p.point = ⟨x, y⟩ ∧ HasWords p t u := by
  obtain ⟨m, hm, rfl⟩ := exists_number_of_finiteNumber? ht
  obtain ⟨n, hn, rfl⟩ := exists_number_of_finiteNumber? hu
  refine ⟨⟨m, n⟩, rfl, ?_⟩
  change [String.ofList m.numeral.chars, String.ofList n.numeral.chars] = _
  rw [hm, hn, String.ofList_toList, String.ofList_toList]

/-- The words of a single set of arguments are a letter and those of the arguments. -/
lemma text_single (s : ArgumentSet) : (Instruction.single false s).tokens.map Token.text =
    String.ofList [s.command.upperLetter] ::
      s.arguments.map fun a => (Token.argument a).text := by
  unfold Instruction.tokens Token.ofSets
  rw [List.map_cons, List.map_map]
  change _ :: (s.arguments ++ []).map _ = _
  rw [List.append_nil]
  rfl

/-- The words of a move. -/
lemma HasWords.move {p : Coordinates} {t u : String} (h : HasWords p t u) :
    (Instruction.single false (.move p)).tokens.map Token.text = ["M", t, u] :=
  (text_single (.move p)).trans (congrArg _ h)

/-- The words of a line. -/
lemma HasWords.line {p : Coordinates} {t u : String} (h : HasWords p t u) :
    (Instruction.single false (.line p)).tokens.map Token.text = ["L", t, u] :=
  (text_single (.line p)).trans (congrArg _ h)

section

variable {tag : Xml.Tag} {sizes : ReferenceSizes}

/-- A list of points that an element gives. -/
lemma points_eq {raw : String} {ps : List Point} (hraw : tag.attribute? "points" = some raw)
    (hps : points tag = .ok ps) : ∃ xs, numberList? raw.toList = some xs ∧ ps = pairs xs := by
  unfold points at hps
  rw [hraw] at hps
  dsimp only at hps
  cases hxs : numberList? raw.toList with
  | none => rw [hxs] at hps; cases hps
  | some xs =>
    rw [hxs] at hps
    exact ⟨xs, rfl, (Except.ok.inj hps).symm⟩

/-- A polyline is drawn as a move and lines. -/
lemma polyline_eq_ofPathData {raw : String} {drawn : List Subpath}
    (hraw : tag.attribute? "points" = some raw)
    (hdrawn : Shape.polyline.subpaths tag sizes = .ok drawn) :
    if pointCount (pointWords raw) = 0 then drawn = []
    else IsDrawnAs .polyline tag sizes (linesText (pointWords raw)) := by
  have haccepted := hdrawn
  change ((points tag).map through).map Outline.subpaths = .ok drawn at hdrawn
  cases hps : points tag with
  | error e => rw [hps] at hdrawn; cases hdrawn
  | ok ps =>
    rw [hps] at hdrawn
    obtain rfl : (through ps).subpaths = drawn := Except.ok.inj hdrawn
    obtain ⟨xs, hxs, rfl⟩ := points_eq hraw hps
    split_ifs with hcount
    · rw [pairs_eq_nil hxs hcount]
      rfl
    · obtain ⟨i, hmove, htext, houtline⟩ := exists_linesThrough hxs hcount
      have hread := ofPathData_join [i] fun j hj => by
        obtain rfl := Option.some.inj hj
        exact hmove
      rw [List.flatMap_singleton, List.flatMap_singleton, ← htext, Step.draw, houtline] at hread
      exact ⟨_, haccepted, hread⟩

/-- A polygon is drawn as a move and lines that are closed. -/
lemma polygon_eq_ofPathData {raw : String} {drawn : List Subpath}
    (hraw : tag.attribute? "points" = some raw)
    (hdrawn : Shape.polygon.subpaths tag sizes = .ok drawn) :
    if pointCount (pointWords raw) = 0 then drawn = []
    else ∀ gap, IsGap gap → IsDrawnAs .polygon tag sizes
      (linesText (pointWords raw) ++ String.ofList (gap ++ ['Z'])) := by
  have haccepted := hdrawn
  change ((points tag).map fun ps => (through ps).close).map Outline.subpaths = .ok drawn at hdrawn
  cases hps : points tag with
  | error e => rw [hps] at hdrawn; cases hdrawn
  | ok ps =>
    rw [hps] at hdrawn
    obtain rfl : (through ps).close.subpaths = drawn := Except.ok.inj hdrawn
    obtain ⟨xs, hxs, rfl⟩ := points_eq hraw hps
    split_ifs with hcount
    · rw [pairs_eq_nil hxs hcount]
      rfl
    · intro gap hgap
      obtain ⟨i, hmove, htext, houtline⟩ := exists_linesThrough hxs hcount
      have hclose : Written ([Instruction.single false .close].flatMap Instruction.tokens)
          (gap ++ ['Z']) := .cons hgap trivial (.nil fun c hc => by cases hc)
      have hseparates : Separates (gap ++ ['Z']) := by
        intro c hc
        cases gap with
        | nil => exact Or.inr ⟨.close, false, (Option.some.inj hc).symm⟩
        | cons d gap =>
          obtain rfl := Option.some.inj hc
          exact Or.inl (hgap _ (List.mem_cons_self ..))
      have hread := ofPathData_join_append [i] (fun j hj => by
        obtain rfl := Option.some.inj hj
        exact hmove) hclose hseparates
      have hsteps : ([i] ++ [Instruction.single false .close]).flatMap Instruction.steps =
          i.steps ++ [⟨false, .close⟩] := rfl
      have hrun : (Pen.initial.run (i.steps ++ [⟨false, .close⟩])).outline =
          (Pen.initial.run i.steps).outline.close := by
        unfold Pen.run
        rw [List.foldl_append]
        rfl
      rw [List.flatMap_singleton, ← htext, hsteps, Step.draw, hrun, houtline] at hread
      exact ⟨_, haccepted, hread⟩

/-- A line is drawn as a move and a line. -/
lemma line_eq_ofPathData {x₁ y₁ x₂ y₂ : Float32} {tx₁ ty₁ tx₂ ty₂ : String}
    (hx₁ : tag.length "x1" .horizontal sizes = .ok x₁)
    (hy₁ : tag.length "y1" .vertical sizes = .ok y₁)
    (hx₂ : tag.length "x2" .horizontal sizes = .ok x₂)
    (hy₂ : tag.length "y2" .vertical sizes = .ok y₂)
    (htx₁ : IsDecimalOf tx₁ x₁) (hty₁ : IsDecimalOf ty₁ y₁)
    (htx₂ : IsDecimalOf tx₂ x₂) (hty₂ : IsDecimalOf ty₂ y₂) :
    IsDrawnAs .line tag sizes (Text.join " " ["M", tx₁, ty₁, "L", tx₂, ty₂]) := by
  obtain ⟨p, hp, hptext⟩ := exists_hasWords htx₁ hty₁
  obtain ⟨q, hq, hqtext⟩ := exists_hasWords htx₂ hty₂
  refine ⟨((Outline.empty.moveTo ⟨x₁, y₁⟩).lineTo ⟨x₂, y₂⟩).subpaths, ?_, ?_⟩
  · unfold subpaths outline
    simp only [hx₁, hy₁, hx₂, hy₂]
    rfl
  · have hread := ofPathData_join [.single false (.move p), .single false (.line q)]
      fun j hj => by
        obtain rfl := Option.some.inj hj
        rfl
    simp only [List.flatMap_cons, List.flatMap_nil, List.append_nil, List.map_append, hptext.move,
      hqtext.line, List.cons_append, List.nil_append] at hread
    rw [hread, ← hp, ← hq]
    rfl

/-- The smaller of zero and anything is not above zero. -/
lemma min_le_zero {a : Float32} (ha : (a == 0) = true) (b : Float32) : Binary32.min a b ≤ 0 := by
  obtain ⟨hnan, hzero, hvalue⟩ := Binary32.beq_iff.mp ha
  have hle : a ≤ 0 := Binary32.le_iff.mpr ⟨hnan, hzero, hvalue.le⟩
  unfold Binary32.min
  rw [if_neg (by rw [hnan]; decide)]
  split_ifs with hb hlt
  · exact hle
  · exact Binary32.le_trans (Binary32.le_of_lt hlt) hle
  · exact hle

/-- No corner is rounded if a radius is zero, or if none is given. -/
def NoRadius (rx? ry? : Option Float32) : Prop :=
  (∃ r ∈ rx?, (r == 0) = true) ∨ (∃ r ∈ ry?, (r == 0) = true) ∨ (rx? = none ∧ ry? = none)

/-- Without radii the corners of a rectangle are square. -/
lemma rectangle_eq_square {w h : Float32} {rx? ry? : Option Float32} (hw : 0 < w) (hh : 0 < h)
    (hradius : NoRadius rx? ry?) (x y : Float32) :
    rectangle x y w h (cornerRadii w h rx? ry?).1 (cornerRadii w h rx? ry?).2 =
      squareRectangle x y w h := by
  have hkept {r : Float32} (hr : (r == 0) = true) :
      (some r).filter (fun r => decide (r ≥ 0)) = some r := by
    obtain ⟨hnan, hzero, hvalue⟩ := Binary32.beq_iff.mp hr
    have hnonneg : r ≥ 0 := Binary32.le_iff.mpr ⟨hzero, hnan, hvalue.ge⟩
    rw [Option.filter_some, if_pos (decide_eq_true hnonneg)]
  have hsquare : (cornerRadii w h rx? ry?).1 ≤ 0 ∨ (cornerRadii w h rx? ry?).2 ≤ 0 := by
    unfold cornerRadii
    dsimp only
    rcases hradius with ⟨r, hr, hzero⟩ | ⟨r, hr, hzero⟩ | ⟨rfl, rfl⟩
    · rw [Option.mem_def.mp hr, hkept hzero]
      exact Or.inl (min_le_zero hzero _)
    · rw [Option.mem_def.mp hr, hkept hzero]
      exact Or.inr (min_le_zero hzero _)
    · exact Or.inl (min_le_zero (by decide) _)
  have hsize : ¬ (w ≤ 0 ∨ h ≤ 0) := fun hle =>
    hle.elim (fun hle => Binary32.not_lt_of_le hle hw) fun hle => Binary32.not_lt_of_le hle hh
  unfold rectangle
  rw [if_neg (by rwa [Bool.or_eq_true, decide_eq_true_eq, decide_eq_true_eq]),
    if_pos (by rwa [Bool.or_eq_true, decide_eq_true_eq, decide_eq_true_eq])]

/-- A rectangle with square corners is drawn as a move and lines that are closed. -/
lemma rect_eq_ofPathData {x y w h : Float32} {rx? ry? : Option Float32} {tx ty tr tb : String}
    (hx : tag.length "x" .horizontal sizes = .ok x)
    (hy : tag.length "y" .vertical sizes = .ok y)
    (hw : tag.extent "width" .horizontal sizes = .ok w)
    (hh : tag.extent "height" .vertical sizes = .ok h)
    (hrx : tag.length? "rx" .horizontal sizes = .ok rx?)
    (hry : tag.length? "ry" .vertical sizes = .ok ry?)
    (hwpos : 0 < w) (hhpos : 0 < h) (hradius : NoRadius rx? ry?)
    (htx : IsDecimalOf tx x) (hty : IsDecimalOf ty y)
    (htr : IsDecimalOf tr (x + w)) (htb : IsDecimalOf tb (y + h)) :
    IsDrawnAs .rect tag sizes
      (Text.join " " ["M", tx, ty, "L", tr, ty, "L", tr, tb, "L", tx, tb, "Z"]) := by
  obtain ⟨p, hp, hptext⟩ := exists_hasWords htx hty
  obtain ⟨q, hq, hqtext⟩ := exists_hasWords htr hty
  obtain ⟨r, hr, hrtext⟩ := exists_hasWords htr htb
  obtain ⟨s, hs, hstext⟩ := exists_hasWords htx htb
  refine ⟨(squareRectangle x y w h).subpaths, ?_, ?_⟩
  · unfold subpaths outline
    simp only [hx, hy, hw, hh, hrx, hry]
    rw [← rectangle_eq_square hwpos hhpos hradius x y]
    rfl
  · have hclose : (Instruction.single false .close).tokens.map Token.text = ["Z"] :=
      text_single .close
    have hread := ofPathData_join [.single false (.move p), .single false (.line q),
      .single false (.line r), .single false (.line s), .single false .close] fun j hj => by
        obtain rfl := Option.some.inj hj
        rfl
    simp only [List.flatMap_cons, List.flatMap_nil, List.append_nil, List.map_append, hptext.move,
      hqtext.line, hrtext.line, hstext.line, hclose, List.cons_append, List.nil_append] at hread
    rw [hread]
    change Except.ok (((((Outline.empty.moveTo p.point).lineTo q.point).lineTo r.point).lineTo
      s.point).close.subpaths) = _
    rw [hp, hq, hr, hs]
    rfl

/-- Every finite number has a decimal. -/
lemma exists_isDecimalOf {x : Float32} (hx : x.isFinite = true) : ∃ t, IsDecimalOf t x := by
  obtain ⟨n, rfl⟩ := exists_number hx
  refine ⟨String.ofList n.numeral.chars, ?_⟩
  rw [IsDecimalOf, String.toList_ofList, n.numeral.finiteNumber?_chars]
  exact if_pos n.isFinite

end

/-- Polylines, polygons, lines and rectangles with square corners are drawn as the path data that
moves to their first point, draws lines to the others and closes, written with the words of the list
of points or with any decimals of the coordinates.  Every finite coordinate has a decimal. -/
theorem subpaths_eq_ofPathData (tag : Xml.Tag) (sizes : ReferenceSizes) :
    (∀ raw drawn, tag.attribute? "points" = some raw →
      Shape.polyline.subpaths tag sizes = .ok drawn →
      if pointCount (pointWords raw) = 0 then drawn = []
      else IsDrawnAs .polyline tag sizes (linesText (pointWords raw))) ∧
    (∀ raw drawn, tag.attribute? "points" = some raw →
      Shape.polygon.subpaths tag sizes = .ok drawn →
      if pointCount (pointWords raw) = 0 then drawn = []
      else ∀ gap, IsGap gap → IsDrawnAs .polygon tag sizes
        (linesText (pointWords raw) ++ String.ofList (gap ++ ['Z']))) ∧
    (∀ x₁ y₁ x₂ y₂ tx₁ ty₁ tx₂ ty₂, tag.length "x1" .horizontal sizes = .ok x₁ →
      tag.length "y1" .vertical sizes = .ok y₁ → tag.length "x2" .horizontal sizes = .ok x₂ →
      tag.length "y2" .vertical sizes = .ok y₂ →
      IsDecimalOf tx₁ x₁ → IsDecimalOf ty₁ y₁ → IsDecimalOf tx₂ x₂ → IsDecimalOf ty₂ y₂ →
      IsDrawnAs .line tag sizes (Text.join " " ["M", tx₁, ty₁, "L", tx₂, ty₂])) ∧
    (∀ x y w h rx? ry? tx ty tr tb, tag.length "x" .horizontal sizes = .ok x →
      tag.length "y" .vertical sizes = .ok y → tag.extent "width" .horizontal sizes = .ok w →
      tag.extent "height" .vertical sizes = .ok h →
      tag.length? "rx" .horizontal sizes = .ok rx? → tag.length? "ry" .vertical sizes = .ok ry? →
      0 < w → 0 < h → NoRadius rx? ry? →
      IsDecimalOf tx x → IsDecimalOf ty y → IsDecimalOf tr (x + w) → IsDecimalOf tb (y + h) →
      IsDrawnAs .rect tag sizes
        (Text.join " " ["M", tx, ty, "L", tr, ty, "L", tr, tb, "L", tx, tb, "Z"])) ∧
    ∀ x : Float32, x.isFinite = true → ∃ t, IsDecimalOf t x :=
  ⟨fun _ _ => polyline_eq_ofPathData, fun _ _ => polygon_eq_ofPathData,
    fun _ _ _ _ _ _ _ _ => line_eq_ofPathData, fun _ _ _ _ _ _ _ _ _ _ => rect_eq_ofPathData,
    fun _ => exists_isDecimalOf⟩

/-- An element with the attributes of several shapes; the last word of its list of points is odd. -/
def manyShapes : Xml.Tag :=
  ⟨0, none, "g", [⟨none, "points", ",1 2 -.5e1,+4 7"⟩, ⟨none, "x1", "1"⟩, ⟨none, "y2", "2"⟩,
    ⟨none, "x", "1"⟩, ⟨none, "width", "2"⟩, ⟨none, "height", "3"⟩, ⟨none, "rx", "0"⟩]⟩

/-- The shapes of this element are drawn as path data with its words and its numbers. -/
theorem subpaths_eq_ofPathData_manyShapes :
    pointCount (pointWords ",1 2 -.5e1,+4 7") = 2 ∧
      IsDrawnAs .polyline manyShapes .initial "M 1 2 -.5e1 +4" ∧
      IsDrawnAs .polygon manyShapes .initial "M 1 2 -.5e1 +4 Z" ∧
      IsDrawnAs .line manyShapes .initial "M 1e0 0 L 0 2" ∧
      IsDrawnAs .rect manyShapes .initial "M 1 0 L 3 0 L 3 3 L 1 3 Z" ∧
      ∃ t, IsDecimalOf t 0.1 := by
  obtain ⟨hpolyline, hpolygon, hline, hrect, hdecimal⟩ :=
    subpaths_eq_ofPathData manyShapes .initial
  have hcount : pointCount (pointWords ",1 2 -.5e1,+4 7") = 2 := by decide +kernel
  have hpositive : pointCount (pointWords ",1 2 -.5e1,+4 7") ≠ 0 := by rw [hcount]; decide
  refine ⟨hcount, ?_, ?_, ?_, ?_, hdecimal 0.1 (by decide)⟩
  · have hread := hpolyline ",1 2 -.5e1,+4 7" _ rfl rfl
    rwa [if_neg hpositive] at hread
  · have hread := hpolygon ",1 2 -.5e1,+4 7" _ rfl rfl
    rw [if_neg hpositive] at hread
    exact hread [' '] (by simp [IsGap, isSeparator])
  · exact hline 1 0 0 2 "1e0" "0" "0" "2" rfl rfl rfl rfl rfl rfl rfl rfl
  · exact hrect 1 0 2 3 (some 0) none "1" "0" "3" "3" rfl rfl rfl rfl rfl rfl (by decide)
      (by decide) (Or.inl ⟨0, rfl, by decide⟩) rfl rfl rfl rfl

end Shape

end SvgDisplayList
