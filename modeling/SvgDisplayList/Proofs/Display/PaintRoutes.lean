import SvgDisplayList.Proofs.Style.ColorText
import SvgDisplayList.Proofs.Style.Property
import SvgDisplayList.Scene.Painting

/-!
# The routes from a colour to a paint

The text of a colour gets to a paint directly, behind a reference to fall back on, or as the current
colour of an element.  On the direct route its alpha value takes its share of the opacity.  On the
other two only the channels come along, so that these give the paint of the opaque colour
(`PaintScope.paint_routes`).
-/

namespace SvgDisplayList

/-- The current colour of an element is the one that it declares, without its alpha value. -/
lemma Style.color_derive {s : Style} {d : Declarations} {sizes : ReferenceSizes} {c : String}
    {a : AlphaColor} (hdistinct : d.Distinct) (hd : d.get? "color" = some c)
    (hc : AlphaColor.ofChars? (Text.trim c.toList) = some a) :
    (s.derive d sizes).color = a.color := by
  have hinherits : inherits c = false := by
    refine Bool.eq_false_iff.mpr fun hsame => ?_
    have hletters := isAlpha_of_sameIgnoringCase hsame rfl
    rw [Text.trim_eq_of_not_blank fun x hx => not_isBlank_of_isAlpha (hletters x hx),
      AlphaColor.ofChars?_of_sameIgnoringCase hsame (by decide) rfl rfl] at hc
    cases hc
  have honce : d.DeclaresOnce .color := hdistinct.declaresOnce nofun
  refine (of_derive honce).trans ?_
  rw [Declarations.valueOf?_eq_get? (rfl : Property.names .color = ["color"]), hd]
  refine (if_neg (Bool.not_eq_true _ ▸ hinherits)).trans ?_
  change ((AlphaColor.ofChars? (Text.trim c.toList)).map (·.color)).getD s.color = a.color
  rw [hc]
  rfl

namespace PaintScope

variable {scope : PaintScope} {c value id : String} {a : AlphaColor}

/-- A colour text gives a paint where it is declared as one, behind a reference that no gradient
answers to, and as the current colour of an element.  On the latter two ways the paint is that of
the opaque colour.  So it is the same as on the first exactly if the alpha value makes no difference
to the opacity. -/
theorem paint_routes (hc : AlphaColor.ofChars? (Text.trim c.toList) = some a)
    (hvalue : PaintSource.reference? value.toList = some (id, Text.trim c.toList))
    (hid : scope.registry.gradient? id = none) :
    ∃ direct fallback, PaintSource.ofChars? c.toList = some direct ∧
      PaintSource.ofChars? value.toList = some fallback ∧
      (∀ (opacity : Float32) (style : Style),
        let share := Binary32.clamp (opacity * style.opacity) 0 1
        (scope.paint fallback opacity style).1 =
            (scope.paint (.color ⟨a.color, 1⟩) opacity style).1 ∧
          ((scope.paint fallback opacity style).1 = (scope.paint direct opacity style).1 ↔
            share * a.alpha = share)) ∧
      ∀ (s : Style) (d : Declarations) (sizes : ReferenceSizes) (opacity : Float32),
        d.Distinct → d.get? "color" = some c →
        let style := s.derive d sizes
        let share := Binary32.clamp (opacity * style.opacity) 0 1
        (scope.paint .currentColor opacity style).1 =
            (scope.paint (.color ⟨a.color, 1⟩) opacity style).1 ∧
          ((scope.paint .currentColor opacity style).1 = (scope.paint direct opacity style).1 ↔
            share * a.alpha = share) := by
  have hfull : ∀ (opacity : Float32) (style : Style),
      (scope.paint (.color ⟨a.color, 1⟩) opacity style).1 =
        some (.solid a.color (Binary32.clamp (opacity * style.opacity) 0 1)) := by
    intro opacity style
    change some (Paint.solid a.color (_ * 1)) = _
    rw [Binary32.mul_comm, Binary32.one_mul]
  have hsame : ∀ share : Float32,
      (some (Paint.solid a.color share) = some (Paint.solid a.color (share * a.alpha)) ↔
        share * a.alpha = share) := by
    intro share
    rw [Option.some_inj, Paint.solid.injEq]
    exact ⟨fun h => h.2.symm, fun h => ⟨rfl, h.symm⟩⟩
  refine ⟨_, _, PaintSource.ofChars?_of_color hc, PaintSource.ofChars?_of_reference hvalue hc,
    fun opacity style => ?_, fun s d sizes opacity hdistinct hd => ?_⟩
  · have hfallback : (scope.paint (.server id (some a.color)) opacity style).1 =
        some (.solid a.color (Binary32.clamp (opacity * style.opacity) 0 1)) := by
      unfold paint server
      dsimp only
      rw [hid]
      dsimp only
      cases scope.registry.element? id <;> rfl
    exact ⟨hfallback.trans (hfull opacity style).symm, hfallback ▸ hsame _⟩
  · have hcurrent : (scope.paint .currentColor opacity (s.derive d sizes)).1 =
        some (.solid a.color (Binary32.clamp (opacity * (s.derive d sizes).opacity) 0 1)) := by
      unfold paint
      dsimp only
      rw [Style.color_derive hdistinct hd hc]
    exact ⟨hcurrent.trans (hfull opacity _).symm, hcurrent ▸ hsame _⟩

/-- What to paint a unit square with in a document without definitions. -/
def bare : PaintScope := ⟨⟨[], 0⟩, .initial, none⟩

/-- A red that lets half of the light through, behind a reference to nothing and as the current
colour, is not the red that it is by itself. -/
theorem paint_routes_halfRed :
    ∃ a direct fallback,
      (AlphaColor.ofChars? (Text.trim "#ff000080".toList) = some a ∧
        PaintSource.reference? "url(#glow) #ff000080".toList =
          some ("glow", Text.trim "#ff000080".toList) ∧
        bare.registry.gradient? "glow" = none) ∧
      PaintSource.ofChars? "#ff000080".toList = some direct ∧
      PaintSource.ofChars? "url(#glow) #ff000080".toList = some fallback ∧
      (bare.paint fallback 1 .initial).1 ≠ (bare.paint direct 1 .initial).1 ∧
      (bare.paint .currentColor 1 (Style.initial.derive ⟨[("color", "#ff000080")]⟩ .initial)).1 ≠
        (bare.paint direct 1 (Style.initial.derive ⟨[("color", "#ff000080")]⟩ .initial)).1 := by
  have halpha : (AlphaColor.ofChars? (Text.trim "#ff000080".toList)).map (·.alpha) =
      some (Color.channelOfByte 128) := by decide +kernel
  obtain ⟨a, hc, ha⟩ := Option.map_eq_some_iff.mp halpha
  have hplain : ∀ d ∈ ['g', 'l', 'o', 'w'],
      d ≠ ')' ∧ d ≠ '"' ∧ d ≠ '\'' ∧ Text.isBlank d = false := by
    intro d hd
    simp only [List.mem_cons, List.not_mem_nil, or_false] at hd
    rcases hd with rfl | rfl | rfl | rfl <;> exact ⟨by decide, by decide, by decide, rfl⟩
  have hvalue : PaintSource.reference? "url(#glow) #ff000080".toList =
      some ("glow", Text.trim "#ff000080".toList) :=
    @PaintSource.reference?_url 'g' ['l', 'o', 'w'] "#ff000080".toList hplain
  have hless : Binary32.clamp (1 * 1) 0 1 * Color.channelOfByte 128 ≠
      Binary32.clamp (1 * 1) 0 1 := by decide +kernel
  obtain ⟨direct, fallback, hdirect, hfallback, hbehind, hcurrent⟩ :=
    @paint_routes bare _ _ _ a hc hvalue rfl
  refine ⟨a, direct, fallback, ⟨hc, hvalue, rfl⟩, hdirect, hfallback, ?_, ?_⟩
  · exact fun hsame => hless (ha ▸ (hbehind 1 .initial).2.mp hsame)
  · exact fun hsame => hless (ha ▸ (hcurrent .initial ⟨[("color", "#ff000080")]⟩ .initial 1
      (by unfold Declarations.Distinct; decide) rfl).2.mp hsame)

end PaintScope

end SvgDisplayList
