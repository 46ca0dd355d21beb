import Mathlib.Tactic.Lemma
import Mathlib.Tactic.SplitIfs
import SvgDisplayList.Proofs.Xml.Numbering
import SvgDisplayList.Scene.ShapeOutline

/-!
# Outlines without empty subpaths

A subpath that never got a segment is not kept.  Drawing steps preserve this of the finished
subpaths of an outline (`Outline.Sound`), whichever they are: the steps of the pen that follows path
data, and those that draw the outlines of the other shapes.  So no subpath of a shape is without
segments (`Shape.segments_ne_of_mem_subpaths`).
-/

namespace SvgDisplayList

namespace Outline

/-- Every finished subpath has a segment. -/
def Sound (o : Outline) : Prop := ∀ s ∈ o.finished, s.segments ≠ #[]

/-- Nothing is finished at the start. -/
lemma sound_empty : empty.Sound := by simp [Sound, empty]

/-- A subpath is kept only with a segment. -/
lemma segments_ne_of_mem_keep {done : Array Subpath} {s u : Subpath}
    (h : ∀ u ∈ done, u.segments ≠ #[]) (hu : u ∈ keep done s) : u.segments ≠ #[] := by
  unfold keep at hu
  split_ifs at hu with hempty
  · exact h u hu
  · rcases Array.mem_push.mp hu with hu | rfl
    · exact h u hu
    · exact fun hnone => hempty (by rw [hnone]; rfl)

namespace Sound

variable {o : Outline}

/-- Flushing keeps an outline sound. -/
lemma flushed (h : o.Sound) : ∀ s ∈ o.flushed, s.segments ≠ #[] := by
  unfold Outline.flushed
  split
  · exact fun u => segments_ne_of_mem_keep h
  · exact h

/-- Moving keeps an outline sound. -/
lemma moveTo (h : o.Sound) (p : Point) : (o.moveTo p).Sound := h.flushed

/-- Drawing a line finishes nothing. -/
lemma lineTo (h : o.Sound) (p : Point) : (o.lineTo p).Sound := h

/-- Drawing a curve finishes nothing. -/
lemma cubicTo (h : o.Sound) (p q r : Point) : (o.cubicTo p q r).Sound := h

/-- Closing keeps an outline sound. -/
lemma close (h : o.Sound) : o.close.Sound := by
  unfold Outline.close
  split
  · exact fun u => segments_ne_of_mem_keep h
  · exact h

/-- The subpaths of a sound outline have segments. -/
lemma subpaths (h : o.Sound) : ∀ s ∈ o.subpaths, s.segments ≠ #[] := fun s hs =>
  h.flushed s (Array.mem_toList_iff.mp hs)

/-- Drawing many segments finishes nothing. -/
lemma foldl {α : Type} (f : Outline → α → Outline) (hf : ∀ o a, o.Sound → (f o a).Sound)
    (as : List α) (h : o.Sound) : (as.foldl f o).Sound := by
  induction as generalizing o with
  | nil => exact h
  | cons a as ih => exact ih (hf o a h)

end Sound

end Outline

/-! ## The pen -/

namespace Pen

/-- A step keeps the outline of a pen sound. -/
lemma sound_step {pen : Pen} (h : pen.outline.Sound) (s : Step) : (pen.step s).outline.Sound := by
  unfold step
  dsimp only
  cases s.motion with
  | move p => exact h.moveTo _
  | close => exact h.close
  | arc shape p =>
    dsimp only
    unfold arcTo
    split
    · exact h.lineTo _
    · exact h.foldl _ (fun o c ho => ho.cubicTo _ _ _) _
  | line | horizontal | vertical | cubic | smoothCubic | quadratic | smoothQuadratic => exact h

/-- A list of steps keeps the outline of a pen sound. -/
lemma sound_run {pen : Pen} (h : pen.outline.Sound) (steps : List Step) :
    (pen.run steps).outline.Sound := by
  unfold run
  induction steps generalizing pen with
  | nil => exact h
  | cons s steps ih => exact ih (sound_step h s)

end Pen

/-- The subpaths that path data draws have segments. -/
lemma Step.segments_ne_of_mem_draw (steps : List Step) : ∀ s ∈ draw steps, s.segments ≠ #[] :=
  (Pen.sound_run Outline.sound_empty steps).subpaths

/-! ## Shapes -/

namespace Shape

/-- A rectangle with square corners is drawn soundly. -/
lemma sound_squareRectangle (x y w h : Float32) : (squareRectangle x y w h).Sound :=
  ((((Outline.sound_empty.moveTo _).lineTo _).lineTo _).lineTo _).close

/-- A rectangle with rounded corners is drawn soundly. -/
lemma sound_roundedRectangle (x y w h rx ry : Float32) :
    (roundedRectangle x y w h rx ry).Sound := by
  have hcorner {o : Outline} (h : o.Sound) (s p q r : Point) :
      ((o.lineTo s).cubicTo p q r).Sound := (h.lineTo s).cubicTo p q r
  have hstart := Outline.sound_empty.moveTo ⟨x + rx, y⟩
  exact (hcorner (hcorner (hcorner (hcorner hstart _ _ _ _) _ _ _ _) _ _ _ _) _ _ _ _).close

/-- A rectangle is drawn soundly. -/
lemma sound_rectangle (x y w h rx ry : Float32) : (rectangle x y w h rx ry).Sound := by
  unfold rectangle
  split_ifs
  · exact Outline.sound_empty
  · exact sound_squareRectangle x y w h
  · exact sound_roundedRectangle x y w h rx ry

/-- An ellipse is drawn soundly. -/
lemma sound_oval (cx cy rx ry : Float32) : (oval cx cy rx ry).Sound := by
  unfold oval
  split_ifs
  · exact Outline.sound_empty
  · have hstart := Outline.sound_empty.moveTo ⟨cx + rx, cy⟩
    exact ((((hstart.cubicTo _ _ _).cubicTo _ _ _).cubicTo _ _ _).cubicTo _ _ _).close

/-- Lines through points are drawn soundly. -/
lemma sound_through (ps : List Point) : (through ps).Sound := by
  cases ps with
  | nil => exact Outline.sound_empty
  | cons p ps => exact (Outline.sound_empty.moveTo p).foldl _ (fun o q ho => ho.lineTo q) ps

/-- Every shape is drawn soundly. -/
lemma sound_outline (shape : Shape) (tag : Xml.Tag) (sizes : ReferenceSizes) :
    Yields (shape.outline tag sizes) Outline.Sound := by
  cases shape with
  | path => exact .ok Outline.sound_empty
  | rect =>
    refine .bind' fun x => .bind' fun y => .bind' fun w => .bind' fun h => ?_
    exact .bind' fun rx => .bind' fun ry => .ok (sound_rectangle x y w h _ _)
  | circle =>
    exact .bind' fun cx => .bind' fun cy => .bind' fun r => .ok (sound_oval cx cy r r)
  | ellipse =>
    refine .bind' fun cx => .bind' fun cy => ?_
    exact .bind' fun rx => .bind' fun ry => .ok (sound_oval cx cy rx ry)
  | line =>
    refine .bind' fun x₁ => .bind' fun y₁ => .bind' fun x₂ => .bind' fun y₂ => ?_
    exact .ok ((Outline.sound_empty.moveTo _).lineTo _)
  | polyline => exact .map (p := fun _ => True) ⟨fun _ => trivial⟩ fun ps _ => sound_through ps
  | polygon =>
    exact .map (p := fun _ => True) ⟨fun _ => trivial⟩ fun ps _ => (sound_through ps).close

/-- No subpath of a shape is without segments. -/
theorem segments_ne_of_mem_subpaths (shape : Shape) (tag : Xml.Tag) (sizes : ReferenceSizes) :
    Yields (shape.subpaths tag sizes) fun subpaths => ∀ s ∈ subpaths, s.segments ≠ #[] := by
  have hdrawn (shape : Shape) : Yields ((shape.outline tag sizes).map Outline.subpaths)
      fun subpaths => ∀ s ∈ subpaths, s.segments ≠ #[] :=
    (sound_outline shape tag sizes).map fun _ => Outline.Sound.subpaths
  cases shape with
  | path =>
    constructor
    intro subpaths h
    change pathSubpaths tag = .ok subpaths at h
    unfold pathSubpaths at h
    split at h
    · cases h
    · rename_i d _
      unfold Subpath.ofPathData at h
      cases hsteps : Step.ofPathData d with
      | error e => rw [hsteps] at h; cases h
      | ok steps =>
        rw [hsteps] at h
        cases h
        exact Step.segments_ne_of_mem_draw steps
  | rect | circle | ellipse | line | polyline | polygon => exact hdrawn _

end Shape

end SvgDisplayList
