import SvgDisplayList.Proofs.Display.WellFormed

/-!
# What vanishes when it is snapped

A stroke without width, a pattern of dashes that are all zero and an image without area are not
drawn, but this is decided before lengths are snapped.  So a command may have a width, dashes or
sides that are zero after all.  This file says exactly when: a length stays positive if it is finite
and at least half a thousandth of a user unit (`Remains`), and every stroke and every image of a
translation is as its style and its element were, with the lengths that remain positive and the
others zero (`Settings.remains_of_mem_commands`).
-/

namespace SvgDisplayList

/-- A length stays positive when it is snapped: it is finite, and at least half a thousandth. -/
def Remains (x : Float32) : Prop := x.isFinite = true ∧ 1 / 2000 ≤ Binary32.value x

/-- What a stroke has of its style: a width that was positive before it was snapped, and dashes of
which one was not zero before, if there are any.  They are so still if such a length remains. -/
structure Stroke.IsOf (k : Stroke) (style : Style) : Prop where
  decided : 0 < style.strokeWidth
  width : k.width = snap style.strokeWidth
  pos_width : 0 < k.width ↔ Remains style.strokeWidth
  dashed : style.dashes = [] ∨ ∃ d ∈ style.dashes, (d == 0) = false
  dashes : k.dashes = style.dashes.map snap
  pos_dash : k.dashes = [] ∨ (∃ d ∈ k.dashes, 0 < d) ↔
    style.dashes = [] ∨ ∃ d ∈ style.dashes, Remains d

/-- What an image has of its element: sides that were neither zero nor negative before they were
snapped.  They are positive still if they remain. -/
structure ImageCommand.IsOf (i : ImageCommand) (tag : Xml.Tag) (sizes : ReferenceSizes) : Prop where
  sides : ∃ uri image width height w h,
    tag.href? = some uri ∧ EmbeddedImage.ofDataUri uri = .ok image ∧
    tag.length? "width" .horizontal sizes = .ok width ∧
    tag.length? "height" .vertical sizes = .ok height ∧
    ImageCommand.sides image width height = .ok (w, h) ∧
    (¬ w < 0 ∧ (w == 0) = false) ∧ (¬ h < 0 ∧ (h == 0) = false) ∧
    i.box.width = snap w ∧ (0 < i.box.width ↔ Remains w) ∧
    i.box.height = snap h ∧ (0 < i.box.height ↔ Remains h)

/-- What a drawable has of an element and its style. -/
def Drawable.IsOf (d : Drawable) (e : Xml.Element) (style : Style) (sizes : ReferenceSizes) :
    Prop :=
  match d with
  | .path p => ∀ k ∈ p.stroke, k.IsOf style
  | .text _ => True
  | .image i => i.IsOf e.tag sizes

/-- Of a list of lengths one is positive after snapping if one remains. -/
lemma exists_pos_snap_iff (lengths : List Float32) :
    (∃ d ∈ lengths.map snap, 0 < d) ↔ ∃ d ∈ lengths, Remains d := by
  constructor
  · rintro ⟨d, hd, hpos⟩
    obtain ⟨d', hd', rfl⟩ := List.mem_map.mp hd
    exact ⟨d', hd', (pos_snap_iff d').mp hpos⟩
  · rintro ⟨d, hd, hremains⟩
    exact ⟨snap d, List.mem_map_of_mem hd, (pos_snap_iff d).mpr hremains⟩

/-- A stroke is of the style that asks for it. -/
lemma PaintScope.isOf_stroke {scope : PaintScope} {style : Style} (h : style.Sound) :
    ∀ k ∈ (scope.stroke style).1, k.IsOf style := by
  intro k hk
  unfold stroke at hk
  split_ifs at hk with hwidth
  · obtain ⟨p, -, rfl⟩ := Option.mem_map.mp hk
    exact
      { decided := hwidth
        width := rfl
        pos_width := pos_snap_iff _
        dashed := h.dashes.drawn
        dashes := rfl
        pos_dash := or_congr List.map_eq_nil_iff (exists_pos_snap_iff _) }
  · cases hk

/-- A path has the stroke of its style. -/
lemma PathCommand.isOf_ofSubpaths {subpaths : List Subpath} {style : Style} {registry : Registry}
    {sizes : ReferenceSizes} (h : style.Sound) :
    ∀ p ∈ (PathCommand.ofSubpaths subpaths style registry sizes).1,
      ∀ k ∈ p.stroke, k.IsOf style := by
  intro p hp
  unfold ofSubpaths at hp
  split_ifs at hp
  · cases hp
  · dsimp only at hp
    split_ifs at hp
    · cases hp
    · cases hp
      exact PaintScope.isOf_stroke h

/-- An image has the sides of its element. -/
lemma ImageCommand.isOf_ofTag (tag : Xml.Tag) (sizes : ReferenceSizes) :
    Yields (ImageCommand.ofTag tag sizes) fun r => ∀ i ∈ r, i.IsOf tag sizes := by
  unfold ofTag
  split
  · exact .error _
  · rename_i uri huri
    refine .bind (.mapError _ _) fun image himage => .bind' fun x => .bind' fun y => ?_
    refine .bind (p := fun width => tag.length? "width" .horizontal sizes = .ok width) ⟨id⟩ ?_
    intro width hwidth
    refine .bind (p := fun height => tag.length? "height" .vertical sizes = .ok height) ⟨id⟩ ?_
    intro height hheight
    refine .bind (.mapError _ _) fun s hsides => ?_
    dsimp only
    split_ifs with hneg hnone
    · exact .error _
    · exact .ok (by simp)
    · refine .ok fun i hi => ?_
      cases hi
      rw [Bool.or_eq_true, not_or, decide_eq_true_iff, decide_eq_true_iff] at hneg
      rw [Bool.or_eq_true, not_or, Bool.not_eq_true, Bool.not_eq_true] at hnone
      exact ⟨uri, image, width, height, s.1, s.2, huri, himage, hwidth, hheight, hsides,
        ⟨hneg.1, hnone.1⟩, ⟨hneg.2, hnone.2⟩, rfl, pos_snap_iff _, rfl, pos_snap_iff _⟩

/-- What an element draws in a sound style is of the element and the style. -/
lemma Stage.isOf_of_drawn? {stage : Stage} {e : Xml.Element} {style : Style} (h : style.Sound)
    {d : Drawable} (hd : stage.drawn? e style = some d) :
    d.IsOf e style (stage.sizes style.fontSize) := by
  unfold drawn? drawable? at hd
  dsimp only at hd
  split at hd
  · obtain ⟨subpaths, -, hd⟩ := Option.bind_eq_some_iff.mp hd
    obtain ⟨p, hp, rfl⟩ := Option.map_eq_some_iff.mp hd
    exact PathCommand.isOf_ofSubpaths h p hp
  · obtain ⟨r, -, hd⟩ := Option.bind_eq_some_iff.mp hd
    obtain ⟨t, -, rfl⟩ := Option.map_eq_some_iff.mp hd
    trivial
  · split_ifs at hd
    obtain ⟨r, hr, hd⟩ := Option.bind_eq_some_iff.mp hd
    obtain ⟨i, hi, rfl⟩ := Option.map_eq_some_iff.mp hd
    exact (ImageCommand.isOf_ofTag _ _).of_toOption hr i hi
  · cases hd

/-- The stroke of a drawable that has one. -/
def Drawable.stroke? : Drawable → Option Stroke
  | .path p => p.stroke
  | _ => none

/-- The text of a square with a stroke of a tenth of a thousandth. -/
def Xml.hairline : String :=
  "<svg><rect width=\"1\" height=\"1\" fill=\"none\" stroke=\"black\"" ++
    " stroke-width=\"0.0001\"/></svg>"

/-- The tree of this text. -/
def Xml.Document.hairline : Xml.Document where
  root := ⟨⟨0, none, "svg", []⟩,
    [.element ⟨1, none, "rect", [⟨none, "width", "1"⟩, ⟨none, "height", "1"⟩,
      ⟨none, "fill", "none"⟩, ⟨none, "stroke", "black"⟩, ⟨none, "stroke-width", "0.0001"⟩]⟩ []]⟩
  beside := []

namespace Settings

variable {settings : Settings} {text : String} {raised signal : Bool} {t : Translation}

/-- Every stroke and every image of a translation is that of an element of the document in a style
that has been derived from the initial one.  What is tested there is the length before it is
snapped: a stroke was wider than nothing, a pattern of dashes had a length other than zero, and an
image had sides that were not zero.  After snapping a width, a dash or a side is positive exactly if
it was finite and at least half a thousandth before. -/
theorem remains_of_mem_commands (h : settings.translateWith text raised = (.ok t, signal)) :
    ∀ c ∈ t.drawing.commands, ∃ document e above chain,
      Xml.Document.read text = .ok document ∧ (e, above) ∈ document.root.node.elements [] ∧
      (settings.stage document.root).drawn? e (Style.descend chain) = some c.drawable ∧
      c.drawable.IsOf e (Style.descend chain)
        ((settings.stage document.root).sizes (Style.descend chain).fontSize) := by
  intro c hc
  obtain ⟨document, hread, e, above, chain, he, hd⟩ := exists_origin h hc
  exact ⟨document, e, above, chain, hread, he, hd,
    Stage.isOf_of_drawn? (Style.sound_descend chain).1 hd⟩

set_option maxRecDepth 20000 in
/-- The square is drawn with a stroke whose width is zero, because that of its style does not
remain. -/
theorem remains_of_mem_commands_hairline :
    ∃ t, initial.translateWith Xml.hairline false = (.ok t, false) ∧
      (t.drawing.commands.filterMap (·.drawable.stroke?)).map (·.width) = [0] ∧
      ∀ c ∈ t.drawing.commands, ∃ document e above chain,
        Xml.Document.read Xml.hairline = .ok document ∧
        (e, above) ∈ document.root.node.elements [] ∧
        (initial.stage document.root).drawn? e (Style.descend chain) = some c.drawable ∧
        c.drawable.IsOf e (Style.descend chain)
          ((initial.stage document.root).sizes (Style.descend chain).fontSize) := by
  have hread : Xml.Document.read Xml.hairline = .ok .hairline := rfl
  have hwidths : ((initial.drawing Xml.Document.hairline.root).commands.filterMap
      (·.drawable.stroke?)).map (·.width) = [0] := by
    decide +kernel
  obtain ⟨t, ht⟩ := initial.translateTree_ok .hairline rfl fun _ => rfl
  have htext := (initial.translateWith_of_read false hread).trans ht
  rw [← initial.commands_eq rfl ht] at hwidths
  exact ⟨t, htext, hwidths, remains_of_mem_commands htext⟩

end Settings

end SvgDisplayList
