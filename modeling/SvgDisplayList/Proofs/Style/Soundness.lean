import SvgDisplayList.Proofs.Style.Share
import SvgDisplayList.Style.Inheritance

/-!
# Sound styles

A style is derived from that of the parent, and the values of some properties are taken relative to
the parent's: multiples of the font size, the product of the opacities, bolder and lighter weights.
Down a chain of elements such values may leave every bound, and become infinite or no numbers at
all.  `Style.Sound` says what holds of the properties all the same.  It holds of the initial style,
one declaration keeps it (`Style.Sound.declare`), and so it holds along every chain
(`Style.descend`), whatever the declarations and the sizes are.
-/

namespace SvgDisplayList

open Binary32

/-! ## Patterns of dashes -/

/-- Lengths that alternate between dashes and gaps: as many of the ones as of the others, none
negative, and not all of them zero. -/
structure IsDashPattern (dashes : List Float32) : Prop where
  even : dashes.length % 2 = 0
  nonneg : ∀ d ∈ dashes, ¬ d < 0
  drawn : dashes = [] ∨ ∃ d ∈ dashes, (d == 0) = false

/-- Without dashes there is nothing that could go wrong. -/
lemma isDashPattern_nil : IsDashPattern [] := ⟨rfl, by simp, Or.inl rfl⟩

/-- Lengths are made a pattern, by leaving them out or by repeating them. -/
lemma isDashPattern_dashPattern (lengths : List Float32) : IsDashPattern (dashPattern lengths) := by
  unfold dashPattern
  dsimp only
  by_cases hnone : (lengths.any (· < 0) || lengths.all (· == 0)) = true
  · rw [if_pos hnone, if_neg (by decide)]
    exact isDashPattern_nil
  · rw [if_neg hnone]
    have hnonneg : ∀ d ∈ lengths, ¬ d < 0 := by
      intro d hd hlt
      refine hnone (Bool.or_eq_true_iff.mpr (Or.inl ?_))
      exact List.any_eq_true.mpr ⟨d, hd, decide_eq_true hlt⟩
    obtain ⟨d, hd, hdrawn⟩ : ∃ d ∈ lengths, (d == 0) = false := by
      by_contra hall
      refine hnone (Bool.or_eq_true_iff.mpr (Or.inr (List.all_eq_true.mpr fun d hd => ?_)))
      by_contra hdrawn
      exact hall ⟨d, hd, Bool.not_eq_true _ ▸ hdrawn⟩
    split_ifs with hodd
    · refine ⟨?_, ?_, Or.inr ⟨d, List.mem_append_left _ hd, hdrawn⟩⟩
      · rw [List.length_append]
        omega
      · intro d hd
        rcases List.mem_append.mp hd with hd | hd <;> exact hnonneg d hd
    · exact ⟨by omega, hnonneg, Or.inr ⟨d, hd, hdrawn⟩⟩

/-- What is read as dashes is a pattern. -/
lemma isDashPattern_dashes? {sizes : ReferenceSizes} {value : String} {dashes : List Float32}
    (h : dashes? sizes value = some dashes) : IsDashPattern dashes := by
  unfold dashes? at h
  split_ifs at h
  · cases h
    exact isDashPattern_nil
  · obtain ⟨lengths, -, rfl⟩ := Option.map_eq_some_iff.mp h
    exact isDashPattern_dashPattern lengths

/-! ## Fonts -/

/-- What is read as a font size is not negative. -/
lemma fontSize?_nonneg {parent : Float32} {value : String} {size : Float32}
    (h : fontSize? parent value = some size) : 0 ≤ size := by
  unfold fontSize? at h
  exact of_decide_eq_true (Option.filter_eq_some_iff.mp h).2

/-- What is read as a font weight lies between one and a thousand. -/
lemma fontWeight?_bounds {parent : Nat} {value : String} {weight : Nat}
    (h : fontWeight? parent value = some weight) : 1 ≤ weight ∧ weight ≤ 1000 := by
  unfold fontWeight? at h
  split at h
  · cases h; decide
  · cases h; decide
  · cases h; split_ifs <;> decide
  · cases h; split_ifs <;> decide
  · have hrange := (Option.filter_eq_some_iff.mp h).2
    simpa using hrange

/-- No family of a list is without a name. -/
lemma ne_empty_of_mem_familyList {value family : String} (h : family ∈ familyList value) :
    family ≠ "" := by
  unfold familyList at h
  dsimp only at h
  obtain ⟨cs, hcs, rfl⟩ := List.mem_map.mp h
  have hne := (List.mem_filter.mp hcs).2
  intro heq
  have hnil : cs = [] := by
    have hlist := congrArg String.toList heq
    simpa using hlist
  rw [hnil] at hne
  exact absurd hne (by decide)

/-! ## One declaration -/

namespace Style

/-- What holds of the properties of every style. -/
structure Sound (s : Style) : Prop where
  opacity : IsShare s.opacity
  fillOpacity : IsShare s.fillOpacity
  strokeOpacity : IsShare s.strokeOpacity
  fill : s.fill.IsSound
  stroke : s.stroke.IsSound
  strokeWidth : 0 ≤ s.strokeWidth
  miterLimit : 1 ≤ s.miterLimit
  finiteMiter : s.miterLimit.isFinite = true
  dashes : IsDashPattern s.dashes
  fontSize : 0 ≤ s.fontSize
  families : s.fontFamilies ≠ [] ∧ ∀ family ∈ s.fontFamilies, family ≠ ""
  weight : 1 ≤ s.fontWeight ∧ s.fontWeight ≤ 1000

/-- The initial style is sound. -/
theorem sound_initial : initial.Sound where
  opacity := isShare_one
  fillOpacity := isShare_one
  strokeOpacity := isShare_one
  fill := isShare_one
  stroke := trivial
  strokeWidth := by decide
  miterLimit := by decide
  finiteMiter := by decide
  dashes := isDashPattern_nil
  fontSize := by decide
  families := by decide
  weight := by decide

/-- The colour that is current has no part in it. -/
lemma Sound.withColor {s : Style} (h : s.Sound) (c : Color) : { s with color := c }.Sound :=
  { h with }

/-- A declaration keeps a style sound and does not add to its opacity. -/
theorem Sound.declare {s : Style} (h : s.Sound) (sizes : ReferenceSizes) (name value : String) :
    (s.declare sizes name value).Sound ∧ (s.declare sizes name value).opacity ≤ s.opacity := by
  have hself : s.opacity ≤ s.opacity := le_self (not_isNaN_left h.opacity.2)
  unfold Style.declare
  dsimp only
  by_cases hinherit : Text.sameIgnoringCase value.toList "inherit".toList = true
  · rw [if_pos hinherit]
    exact ⟨h, hself⟩
  rw [if_neg hinherit]
  -- one case for each property, in the order in which they are told apart
  split
  case h_1 =>
    exact ⟨{ h with fill := getD_of_forall (fun _ => PaintSource.isSound_ofChars?) h.fill }, hself⟩
  case h_2 =>
    exact ⟨{ h with stroke := getD_of_forall (fun _ => PaintSource.isSound_ofChars?) h.stroke },
      hself⟩
  case h_3 =>
    exact ⟨{ h with fillOpacity := getD_of_forall (fun _ => isShare_opacity?) h.fillOpacity },
      hself⟩
  case h_4 =>
    exact ⟨{ h with strokeOpacity := getD_of_forall (fun _ => isShare_opacity?) h.strokeOpacity },
      hself⟩
  case h_5 =>
    split
    case h_1 v hv =>
      have hshare := isShare_opacity? hv
      exact ⟨{ h with opacity := h.opacity.mul hshare }, h.opacity.mul_le hshare⟩
    case h_2 => exact ⟨h, hself⟩
  case h_7 =>
    split
    case h_1 v hv =>
      have hwidth : 0 ≤ Binary32.max v 0 := le_max_right (by decide)
      exact ⟨{ h with strokeWidth := hwidth }, hself⟩
    case h_2 => exact ⟨h, hself⟩
  case h_10 =>
    split
    case h_1 v hv =>
      have hlimit : 1 ≤ Binary32.max v 1 := le_max_right (by decide)
      have hfinite : (Binary32.max v 1).isFinite = true :=
        isFinite_max (finiteNumber?_spec hv).2.2 (by decide)
      exact ⟨{ h with miterLimit := hlimit, finiteMiter := hfinite }, hself⟩
    case h_2 => exact ⟨h, hself⟩
  case h_11 =>
    exact ⟨{ h with dashes := getD_of_forall (fun _ => isDashPattern_dashes?) h.dashes }, hself⟩
  case h_13 => exact ⟨h.withColor _, hself⟩
  case h_14 =>
    split
    case h_1 => exact ⟨h, hself⟩
    case h_2 hne =>
      exact ⟨{ h with families := ⟨hne, fun _ => ne_empty_of_mem_familyList⟩ }, hself⟩
  case h_15 =>
    have hread (w : Nat) (hw : fontWeight? s.fontWeight value = some w) : 1 ≤ w ∧ w ≤ 1000 :=
      fontWeight?_bounds hw
    have hweight := getD_of_forall hread h.weight
    exact ⟨{ h with weight := hweight }, hself⟩
  all_goals exact ⟨{ h with }, hself⟩

/-- The font size of an element is not negative, and nothing else is settled before it. -/
theorem Sound.withFontSize {s : Style} (h : s.Sound) (d : Declarations) :
    (s.withFontSize d).Sound ∧ (s.withFontSize d).opacity = s.opacity := by
  unfold Style.withFontSize
  split
  case h_1 size hsize =>
    obtain ⟨value, -, hvalue⟩ := Option.bind_eq_some_iff.mp hsize
    exact ⟨{ h with fontSize := fontSize?_nonneg hvalue }, rfl⟩
  case h_2 => exact ⟨h, rfl⟩

/-! ## Chains -/

/-- A list of declarations keeps a style sound and never raises its opacity. -/
lemma Sound.declareAll {s : Style} (h : s.Sound) (sizes : ReferenceSizes)
    (entries : Keyed String) :
    (entries.foldl (fun s e => s.declare sizes e.1 e.2) s).Sound ∧
      (entries.foldl (fun s e => s.declare sizes e.1 e.2) s).opacity ≤ s.opacity := by
  induction entries generalizing s with
  | nil => exact ⟨h, le_self (not_isNaN_left h.opacity.2)⟩
  | cons entry entries ih =>
    obtain ⟨hsound, hle⟩ := h.declare sizes entry.1 entry.2
    obtain ⟨hsound', hle'⟩ := ih hsound
    exact ⟨hsound', le_trans hle' hle⟩

/-- The style of an element is sound if that of its parent is, and its opacity does not exceed that
of its parent. -/
theorem Sound.derive {s : Style} (h : s.Sound) (d : Declarations) (sizes : ReferenceSizes) :
    (s.derive d sizes).Sound ∧ (s.derive d sizes).opacity ≤ s.opacity := by
  obtain ⟨hsized, hopacity⟩ := h.withFontSize d
  have hderived :=
    hsized.declareAll { sizes with fontSize := (s.withFontSize d).fontSize } d.entries
  rw [hopacity] at hderived
  exact hderived

/-- The style at the end of a chain of elements: each makes its declarations with sizes of its
own. -/
def descend (chain : List (Declarations × ReferenceSizes)) : Style :=
  chain.foldl (fun s e => s.derive e.1 e.2) initial

/-- Along every chain of elements the style stays sound, whatever they declare and whatever their
sizes are, and the opacity never grows. -/
theorem sound_descend (chain : List (Declarations × ReferenceSizes)) :
    (descend chain).Sound ∧ ∀ (d : Declarations) (sizes : ReferenceSizes),
      ((descend chain).derive d sizes).opacity ≤ (descend chain).opacity := by
  have hchain (s : Style) (hs : s.Sound) : (chain.foldl (fun s e => s.derive e.1 e.2) s).Sound := by
    induction chain generalizing s with
    | nil => exact hs
    | cons e chain ih => exact ih _ (hs.derive e.1 e.2).1
  have hsound : (descend chain).Sound := hchain initial sound_initial
  exact ⟨hsound, fun d sizes => (hsound.derive d sizes).2⟩

end Style

end SvgDisplayList
