import SvgDisplayList.Proofs.Drawing.Origin
import SvgDisplayList.Proofs.Geometry.Outline
import SvgDisplayList.Proofs.Number.Snap
import SvgDisplayList.Proofs.Text.Collapse

/-!
# Well-formed commands

Whatever a document says, its commands are well formed (`Settings.wellFormed_of_mem_commands`).
Each part of a command owes this to another place: subpaths have segments because outlines drop
those without, strokes and fonts are as they should be because derived styles are sound, texts are
runs because they have been collapsed, and every coordinate is of moderate magnitude because it has
been snapped.
-/

namespace SvgDisplayList

/-! ## What it means to be well formed -/

/-- Both coordinates of a point are of moderate magnitude. -/
def Point.IsBounded (p : Point) : Prop := Bounded p.x ∧ Bounded p.y

/-- A subpath has a segment, and all its points are of moderate magnitude. -/
structure Subpath.WellFormed (s : Subpath) : Prop where
  segments : s.segments ≠ #[]
  points : ∀ p ∈ s.points, p.IsBounded

/-- A stroke has a width that is not negative, as many dashes as gaps, none of them negative, and a
finite miter limit that is at least one. -/
structure Stroke.WellFormed (k : Stroke) : Prop where
  opacity : IsShare k.paint.opacity
  width : 0 ≤ k.width ∧ Bounded k.width
  miterLimit : 1 ≤ k.miterLimit ∧ k.miterLimit.isFinite = true
  dashes : ∀ d ∈ k.dashes, 0 ≤ d ∧ Bounded d
  even : k.dashes.length % 2 = 0
  dashOffset : Bounded k.dashOffset

/-- A path has a subpath, and it is filled or stroked. -/
structure PathCommand.WellFormed (p : PathCommand) : Prop where
  ne_nil : p.subpaths ≠ []
  subpaths : ∀ s ∈ p.subpaths, s.WellFormed
  painted : p.fill.isSome = true ∨ p.stroke.isSome = true
  fill : ∀ f ∈ p.fill, IsShare f.paint.opacity
  stroke : ∀ k ∈ p.stroke, k.WellFormed

/-- A font has a family and a weight, which decides whether it is bold. -/
structure FontChoice.WellFormed (f : FontChoice) : Prop where
  families : f.families ≠ []
  size : Bounded f.size
  weight : 1 ≤ f.weight ∧ f.weight ≤ 1000
  bold : f.bold = true ↔ 600 ≤ f.weight

/-- A text is a run, and there is one line for each of its decorations, in their order. -/
structure TextCommand.WellFormed (t : TextCommand) : Prop where
  content : Text.IsRun t.content.toList
  position : t.position.IsBounded
  font : t.font.WellFormed
  fill : ∀ p ∈ t.fill, IsShare p.opacity
  decorated : t.lines.map (·.decoration) = t.decorations.toList
  lines : ∀ l ∈ t.lines, Bounded l.offset ∧ Bounded l.thickness

/-- The sides of an image are not negative. -/
structure ImageCommand.WellFormed (i : ImageCommand) : Prop where
  x : Bounded i.box.x
  y : Bounded i.box.y
  width : 0 ≤ i.box.width ∧ Bounded i.box.width
  height : 0 ≤ i.box.height ∧ Bounded i.box.height

/-- A drawable is well formed as what it is. -/
def Drawable.WellFormed : Drawable → Prop
  | .path p => p.WellFormed
  | .text t => t.WellFormed
  | .image i => i.WellFormed

/-! ## Geometry -/

/-- Points that have been snapped are of moderate magnitude. -/
lemma Point.isBounded_snapped (p : Point) : p.snapped.IsBounded :=
  ⟨bounded_snap p.x, bounded_snap p.y⟩

/-- The points of a subpath that has been snapped are of moderate magnitude. -/
lemma Subpath.isBounded_of_mem_snapped {s : Subpath} {p : Point} (h : p ∈ s.snapped.points) :
    p.IsBounded := by
  have hsegment (g : Segment) : ∀ p ∈ (g.map Point.snapped).points, p.IsBounded := by
    cases g <;> simp [Segment.map, Segment.points, Point.isBounded_snapped]
  rcases List.mem_cons.mp h with rfl | h
  · exact s.start.isBounded_snapped
  · obtain ⟨g, hg, hp⟩ := List.mem_flatMap.mp h
    obtain ⟨g', -, rfl⟩ := Array.mem_map.mp (Array.mem_toList_iff.mp hg)
    exact hsegment g' p hp

/-- A subpath with a segment is well formed once it has been snapped. -/
lemma Subpath.wellFormed_snapped {s : Subpath} (h : s.segments ≠ #[]) : s.snapped.WellFormed where
  segments := by simpa [snapped, Subpath.map] using h
  points _ := isBounded_of_mem_snapped

/-! ## Paints -/

namespace PaintScope

variable {scope : PaintScope} {source : PaintSource} {opacity : Float32} {style : Style}

/-- The opacity of a server's paint is the one asked for, and that of its fallback is its own. -/
lemma isShare_server {id : String} {fallback : Option Paint} (ho : IsShare opacity)
    (hf : ∀ p ∈ fallback, IsShare p.opacity) :
    ∀ p ∈ (scope.server id opacity fallback).1, IsShare p.opacity := by
  unfold server
  split
  · rename_i g _
    split_ifs
    · exact hf
    · intro p hp
      dsimp only at hp
      cases hresolved : g.resolve? scope.box? scope.sizes with
      | none =>
        rw [hresolved] at hp
        exact hf p hp
      | some r =>
        rw [hresolved] at hp
        cases hp
        exact ho
  · split <;> exact hf

/-- The opacity of a paint is a share, if those of its source and of the style are. -/
lemma isShare_paint (hs : source.IsSound) (ho : IsShare opacity) (hstyle : IsShare style.opacity) :
    ∀ p ∈ (scope.paint source opacity style).1, IsShare p.opacity := by
  have hshare : IsShare (Binary32.clamp (opacity * style.opacity) 0 1) :=
    isShare_clamp (ho.mul_bounds hstyle).1
  unfold paint
  intro p hp
  cases source with
  | none => cases hp
  | color c =>
    cases hp
    exact hshare.mul hs
  | currentColor =>
    cases hp
    exact hshare
  | server id fallback =>
    refine isShare_server hshare (fun p hp => ?_) p hp
    obtain ⟨c, -, rfl⟩ := Option.mem_map.mp hp
    exact hshare

/-- The fill of a sound style has a share for its opacity. -/
lemma isShare_fill (h : style.Sound) : ∀ f ∈ (scope.fill style).1, IsShare f.paint.opacity := by
  intro f hf
  obtain ⟨p, hp, rfl⟩ := Option.mem_map.mp hf
  exact isShare_paint h.fill h.fillOpacity h.opacity p hp

/-- A stroke of a sound style is well formed. -/
lemma wellFormed_stroke (h : style.Sound) : ∀ k ∈ (scope.stroke style).1, k.WellFormed := by
  intro k hk
  unfold stroke at hk
  split_ifs at hk with hwidth
  · obtain ⟨p, hp, rfl⟩ := Option.mem_map.mp hk
    exact
      { opacity := isShare_paint h.stroke h.strokeOpacity h.opacity p hp
        width := ⟨snap_nonneg (Binary32.not_lt_of_le h.strokeWidth), bounded_snap _⟩
        miterLimit := ⟨h.miterLimit, h.finiteMiter⟩
        dashes := by
          intro d hd
          obtain ⟨d', hd', rfl⟩ := List.mem_map.mp hd
          exact ⟨snap_nonneg (h.dashes.nonneg d' hd'), bounded_snap d'⟩
        even := by
          rw [List.length_map]
          exact h.dashes.even
        dashOffset := bounded_snap _ }
  · cases hk

end PaintScope

/-! ## Drawables -/

/-- A path of a sound style is well formed, if its subpaths have segments. -/
lemma PathCommand.wellFormed_ofSubpaths {subpaths : List Subpath} {style : Style}
    {registry : Registry} {sizes : ReferenceSizes} (h : style.Sound)
    (hsegments : ∀ s ∈ subpaths, s.segments ≠ #[]) :
    ∀ p ∈ (PathCommand.ofSubpaths subpaths style registry sizes).1, p.WellFormed := by
  intro p hp
  unfold ofSubpaths at hp
  split_ifs at hp with hnone
  · cases hp
  · dsimp only at hp
    split_ifs at hp with hpaint
    · cases hp
    · cases hp
      exact
        { ne_nil := by
            intro hnil
            rw [List.map_eq_nil_iff] at hnil
            rw [hnil] at hnone
            exact hnone rfl
          subpaths := by
            intro s hs
            obtain ⟨s', hs', rfl⟩ := List.mem_map.mp hs
            exact Subpath.wellFormed_snapped (hsegments s' hs')
          painted := by
            rw [Bool.and_eq_true, not_and_or, Option.isNone_iff_eq_none,
              Option.isNone_iff_eq_none] at hpaint
            exact hpaint.imp Option.isSome_iff_ne_none.mpr Option.isSome_iff_ne_none.mpr
          fill := PaintScope.isShare_fill h
          stroke := PaintScope.wellFormed_stroke h }

/-- A text of a sound style is well formed. -/
lemma TextCommand.wellFormed_ofElement {e : Xml.Element} {style : Style} {registry : Registry}
    {sizes : ReferenceSizes} {fonts : FontSource} (h : style.Sound) :
    Yields (TextCommand.ofElement e style registry sizes fonts) fun r =>
      ∀ t ∈ r.1, t.WellFormed := by
  refine .bind' fun position => ?_
  dsimp only
  split_ifs with hnone
  · exact .ok (by simp)
  · refine .ok fun t ht => ?_
    cases ht
    rw [Bool.or_eq_true, not_or, Bool.not_eq_true] at hnone
    exact
      { content := TextCommand.isRun_collapse hnone.1
        position := position.isBounded_snapped
        font :=
          { families := h.families.1
            size := bounded_snap _
            weight := h.weight
            bold := decide_eq_true_iff }
        fill := PaintScope.isShare_paint h.fill h.fillOpacity h.opacity
        decorated := by
          rw [List.map_map]
          exact List.map_id _
        lines := by
          intro l hl
          obtain ⟨d, -, rfl⟩ := List.mem_map.mp hl
          exact ⟨bounded_snap _, bounded_snap _⟩ }

/-- An image is well formed. -/
lemma ImageCommand.wellFormed_ofTag {tag : Xml.Tag} {sizes : ReferenceSizes} :
    Yields (ImageCommand.ofTag tag sizes) fun r => ∀ i ∈ r, i.WellFormed := by
  unfold ofTag
  split
  · exact .error _
  · refine .bind' fun image => .bind' fun x => .bind' fun y => ?_
    refine .bind' fun width => .bind' fun height => .bind' fun sides => ?_
    dsimp only
    split_ifs with hneg hnone
    · exact .error _
    · exact .ok (by simp)
    · refine .ok fun i hi => ?_
      cases hi
      rw [Bool.or_eq_true, not_or, decide_eq_true_iff, decide_eq_true_iff] at hneg
      exact
        { x := bounded_snap _
          y := bounded_snap _
          width := ⟨snap_nonneg hneg.1, bounded_snap _⟩
          height := ⟨snap_nonneg hneg.2, bounded_snap _⟩ }

/-- What an element draws in a sound style is well formed. -/
theorem Stage.wellFormed_of_drawn? {stage : Stage} {e : Xml.Element} {style : Style}
    (h : style.Sound) {d : Drawable} (hd : stage.drawn? e style = some d) : d.WellFormed := by
  unfold drawn? drawable? at hd
  dsimp only at hd
  split at hd
  · obtain ⟨subpaths, hsubpaths, hd⟩ := Option.bind_eq_some_iff.mp hd
    obtain ⟨p, hp, rfl⟩ := Option.map_eq_some_iff.mp hd
    have hsegments := (Shape.segments_ne_of_mem_subpaths _ _ _).of_toOption hsubpaths
    exact PathCommand.wellFormed_ofSubpaths h hsegments p hp
  · obtain ⟨r, hr, hd⟩ := Option.bind_eq_some_iff.mp hd
    obtain ⟨t, ht, rfl⟩ := Option.map_eq_some_iff.mp hd
    exact (TextCommand.wellFormed_ofElement h).of_toOption hr t ht
  · split_ifs at hd
    obtain ⟨r, hr, hd⟩ := Option.bind_eq_some_iff.mp hd
    obtain ⟨i, hi, rfl⟩ := Option.map_eq_some_iff.mp hd
    exact ImageCommand.wellFormed_ofTag.of_toOption hr i hi
  · cases hd

/-- The text of a square with dashes and of a text, both of them too far away to have a place. -/
def Xml.farAway : String :=
  "<svg><rect x=\"3e38cm\" width=\"5\" height=\"4\" stroke=\"red\" stroke-dasharray=\"1\"/>" ++
    "<text y=\"3e38em\"> a  b </text></svg>"

/-- The tree of this text. -/
def Xml.Document.farAway : Xml.Document where
  root := ⟨⟨0, none, "svg", []⟩,
    [.element ⟨1, none, "rect", [⟨none, "x", "3e38cm"⟩, ⟨none, "width", "5"⟩, ⟨none, "height", "4"⟩,
      ⟨none, "stroke", "red"⟩, ⟨none, "stroke-dasharray", "1"⟩]⟩ [],
    .element ⟨2, none, "text", [⟨none, "y", "3e38em"⟩]⟩ [.text " a  b "]]⟩
  beside := []

namespace Settings

variable {settings : Settings} {text : String} {raised signal : Bool} {t : Translation}

/-- Every command of a document that is translated is well formed, whatever the document, the
settings and the abort signal are. -/
theorem wellFormed_of_mem_commands (h : settings.translateWith text raised = (.ok t, signal)) :
    ∀ c ∈ t.drawing.commands, c.drawable.WellFormed := by
  intro c hc
  obtain ⟨document, -, e, above, chain, -, hd⟩ := exists_origin h hc
  exact Stage.wellFormed_of_drawn? (Style.sound_descend chain).1 hd

set_option maxRecDepth 20000 in
/-- The square and the text, whose coordinates are infinite before they are snapped, make
well-formed commands. -/
theorem wellFormed_of_mem_commands_farAway :
    ∃ t, initial.translateWith Xml.farAway false = (.ok t, false) ∧ t.drawing.commands.length = 2 ∧
      ∀ c ∈ t.drawing.commands, c.drawable.WellFormed := by
  have hread : Xml.Document.read Xml.farAway = .ok .farAway := rfl
  have hlength : (initial.drawing Xml.Document.farAway.root).commands.length = 2 := by
    decide +kernel
  obtain ⟨t, ht⟩ := initial.translateTree_ok .farAway rfl fun _ => rfl
  have htext := (initial.translateWith_of_read false hread).trans ht
  rw [← initial.commands_eq rfl ht] at hlength
  exact ⟨t, htext, hlength, wellFormed_of_mem_commands htext⟩

end Settings

end SvgDisplayList
