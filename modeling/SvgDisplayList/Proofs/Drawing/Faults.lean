import SvgDisplayList.Proofs.Drawing.Expansion

/-!
# Faults of an element's own

Two errors are about how uses nest: a reference cycle and a use that is too deep.  All other errors
are an element's own.  Whatever reads attributes, gradients, paints, texts and images has errors of
the element's own alone, so errors about nesting come from the expansion of uses and from nowhere
else.
-/

namespace SvgDisplayList

/-- Whether an error is about the element itself and not about how uses nest. -/
def ElementError.IsOwn : ElementError → Prop
  | .referenceCycle _ | .reuseTooDeep _ => False
  | _ => True

/-- Whatever goes wrong in a computation is an element's own fault. -/
structure OwnFaults {α : Type} (x : Except ElementError α) : Prop where
  isOwn : ∀ {e}, x = .error e → e.IsOwn

namespace OwnFaults

variable {α β : Type} {x : Except ElementError α}

/-- Nothing is wrong with a value. -/
lemma ok (a : α) : OwnFaults (.ok a : Except ElementError α) := ⟨fun h => by cases h⟩

/-- An error of the element's own. -/
lemma error {e : ElementError} (he : e.IsOwn) : OwnFaults (.error e : Except ElementError α) := by
  constructor
  intro e' h
  obtain rfl := Except.error.inj h
  exact he

/-- Two computations in a row. -/
lemma bind {f : α → Except ElementError β} (hx : OwnFaults x) (hf : ∀ a, OwnFaults (f a)) :
    OwnFaults (x >>= f) := by
  cases x with
  | error e => exact error (hx.isOwn rfl)
  | ok a => exact hf a

/-- A computation whose value is used. -/
lemma map {f : α → β} (hx : OwnFaults x) : OwnFaults (x.map f) := by
  cases x with
  | error e => exact error (hx.isOwn rfl)
  | ok a => exact ok _

/-- A computation with errors of another kind that are made the element's own. -/
lemma mapError {ε : Type} {f : ε → ElementError} (hf : ∀ e, (f e).IsOwn) (y : Except ε α) :
    OwnFaults (y.mapError f) := by
  cases y with
  | error e => exact error (hf e)
  | ok a => exact ok a

end OwnFaults

/-! ## Attributes -/

namespace Xml.Tag

variable (t : Tag) (name : String) (axis : Axis) (sizes : ReferenceSizes)

lemma ownFaults_length? : OwnFaults (t.length? name axis sizes) := by
  unfold length?
  split
  · exact .ok _
  · split
    · exact .ok _
    · exact .error trivial

lemma ownFaults_length : OwnFaults (t.length name axis sizes) :=
  (t.ownFaults_length? name axis sizes).map

lemma ownFaults_extent : OwnFaults (t.extent name axis sizes) := by
  unfold extent
  split
  · rename_i e h
    exact .error ((t.ownFaults_length name axis sizes).isOwn h)
  · split_ifs
    · exact .error trivial
    · exact .ok _

end Xml.Tag

/-- The lengths of a use are read with errors of its own alone. -/
lemma Stage.ownFaults_useLengths (tag : Xml.Tag) (sizes : ReferenceSizes) :
    OwnFaults (useLengths tag sizes) := by
  unfold useLengths
  refine .bind (tag.ownFaults_length ..) fun x => ?_
  refine .bind (tag.ownFaults_length ..) fun y => ?_
  refine .bind (tag.ownFaults_length? ..) fun width => ?_
  exact .bind (tag.ownFaults_length? ..) fun height => .ok _

/-- The transform of an element is read with errors of its own alone. -/
lemma Stage.ownFaults_localMatrix (tag : Xml.Tag) : OwnFaults (localMatrix tag) := by
  unfold localMatrix
  split
  · exact .ok _
  · exact .mapError (f := .invalidTransform) (fun _ => trivial) _

/-! ## Shapes, texts and images -/

namespace Shape

variable (tag : Xml.Tag) (sizes : ReferenceSizes)

lemma ownFaults_points : OwnFaults (points tag) := by
  unfold points
  split
  · exact .error trivial
  · split
    · exact .ok _
    · exact .error trivial

lemma ownFaults_outline (shape : Shape) : OwnFaults (shape.outline tag sizes) := by
  cases shape with
  | path => exact .ok _
  | rect =>
    refine .bind (tag.ownFaults_length ..) fun x => ?_
    refine .bind (tag.ownFaults_length ..) fun y => ?_
    refine .bind (tag.ownFaults_extent ..) fun w => ?_
    refine .bind (tag.ownFaults_extent ..) fun h => ?_
    refine .bind (tag.ownFaults_length? ..) fun rx => ?_
    exact .bind (tag.ownFaults_length? ..) fun ry => .ok _
  | circle =>
    refine .bind (tag.ownFaults_length ..) fun cx => ?_
    refine .bind (tag.ownFaults_length ..) fun cy => ?_
    exact .bind (tag.ownFaults_extent ..) fun r => .ok _
  | ellipse =>
    refine .bind (tag.ownFaults_length ..) fun cx => ?_
    refine .bind (tag.ownFaults_length ..) fun cy => ?_
    refine .bind (tag.ownFaults_extent ..) fun rx => ?_
    exact .bind (tag.ownFaults_extent ..) fun ry => .ok _
  | line =>
    refine .bind (tag.ownFaults_length ..) fun x₁ => ?_
    refine .bind (tag.ownFaults_length ..) fun y₁ => ?_
    refine .bind (tag.ownFaults_length ..) fun x₂ => ?_
    exact .bind (tag.ownFaults_length ..) fun y₂ => .ok _
  | polyline => exact (ownFaults_points tag).map
  | polygon => exact (ownFaults_points tag).map

/-- A shape is outlined with errors of its element's own alone. -/
lemma ownFaults_subpaths (shape : Shape) : OwnFaults (shape.subpaths tag sizes) := by
  cases shape with
  | path =>
    unfold subpaths pathSubpaths
    dsimp only
    split
    · exact .error trivial
    · exact .mapError (f := .invalidPath) (fun _ => trivial) _
  | _ => exact (ownFaults_outline tag sizes _).map

end Shape

/-- What goes wrong with a paint is the fault of the element that is painted. -/
lemma PaintScope.isOwn_of_mem_paint (scope : PaintScope) (source : PaintSource) (opacity : Float32)
    (style : Style) {e : ElementError} (he : e ∈ (scope.paint source opacity style).2) :
    e.IsOwn := by
  unfold paint server at he
  split at he
  · simp at he
  · simp at he
  · simp at he
  · split at he
    · split_ifs at he
      · obtain rfl := List.mem_singleton.mp he
        trivial
      · simp at he
    · split at he
      · dsimp only at he
        split_ifs at he
        · simp at he
        · obtain rfl := List.mem_singleton.mp he
          trivial
      · obtain rfl := List.mem_singleton.mp he
        trivial

/-- What goes wrong with the paints of an outline is the fault of its element. -/
lemma PathCommand.isOwn_of_mem_ofSubpaths (subpaths : List Subpath) (style : Style)
    (registry : Registry) (sizes : ReferenceSizes) {e : ElementError}
    (he : e ∈ (ofSubpaths subpaths style registry sizes).2) : e.IsOwn := by
  unfold ofSubpaths at he
  split_ifs at he with hempty
  · simp at he
  · rcases List.mem_append.mp he with he | he
    · exact PaintScope.isOwn_of_mem_paint _ _ _ _ he
    · unfold PaintScope.stroke at he
      split_ifs at he with hwidth
      · exact PaintScope.isOwn_of_mem_paint _ _ _ _ he
      · simp at he

namespace TextCommand

lemma ownFaults_firstLength (tag : Xml.Tag) (name : String) (axis : Axis) (sizes : ReferenceSizes) :
    OwnFaults (firstLength tag name axis sizes) := by
  unfold firstLength
  split
  · exact .ok _
  · split
    · exact .ok _
    · split
      · exact .ok _
      · exact .error trivial

lemma ownFaults_positionOf (tag : Xml.Tag) (sizes : ReferenceSizes) :
    OwnFaults (positionOf tag sizes) := by
  unfold positionOf
  refine .bind (ownFaults_firstLength ..) fun x => ?_
  refine .bind (ownFaults_firstLength ..) fun dx => ?_
  refine .bind (ownFaults_firstLength ..) fun y => ?_
  exact .bind (ownFaults_firstLength ..) fun dy => .ok _

variable {e : Xml.Element} {style : Style} {registry : Registry} {sizes : ReferenceSizes}
    {fonts : FontSource}

/-- A text is set with errors of its element's own alone. -/
lemma ownFaults_ofElement (e : Xml.Element) (style : Style) (registry : Registry)
    (sizes : ReferenceSizes) (fonts : FontSource) :
    OwnFaults (ofElement e style registry sizes fonts) := by
  unfold ofElement
  refine .bind (ownFaults_positionOf ..) fun position => ?_
  dsimp only
  split_ifs
  · exact .ok _
  · exact .ok _

/-- What goes wrong with the paint of a text is the fault of its element. -/
lemma isOwn_of_mem_ofElement {r : Option TextCommand × List ElementError} {err : ElementError}
    (h : ofElement e style registry sizes fonts = .ok r) (herr : err ∈ r.2) : err.IsOwn := by
  unfold ofElement at h
  cases hp : positionOf e.tag sizes with
  | error e' =>
    rw [hp] at h
    cases h
  | ok position =>
    rw [hp] at h
    dsimp only [bind, Except.bind] at h
    split_ifs at h
    · cases h
      cases herr
    · cases h
      exact PaintScope.isOwn_of_mem_paint _ _ _ _ herr

end TextCommand

/-- An image is placed with errors of its element's own alone. -/
lemma ImageCommand.ownFaults_ofTag (tag : Xml.Tag) (sizes : ReferenceSizes) :
    OwnFaults (ofTag tag sizes) := by
  unfold ofTag
  split
  · exact .error trivial
  · refine .bind (.mapError (f := .image) (fun _ => trivial) _) fun image => ?_
    refine .bind (tag.ownFaults_length ..) fun x => ?_
    refine .bind (tag.ownFaults_length ..) fun y => ?_
    refine .bind (tag.ownFaults_length? ..) fun width => ?_
    refine .bind (tag.ownFaults_length? ..) fun height => ?_
    refine .bind (.mapError (f := .image) (fun _ => trivial) _) fun side => ?_
    dsimp only
    split_ifs
    · exact .error trivial
    · exact .ok _
    · exact .ok _

/-! ## Gradients -/

namespace GradientAttributes

variable (tag : Xml.Tag)

lemma ownFaults_coordinate? (name : String) : OwnFaults (coordinate? tag name) := by
  unfold coordinate?
  split
  · exact .ok _
  · split
    · exact .ok _
    · exact .error trivial

lemma ownFaults_transform? : OwnFaults (transform? tag) := by
  unfold transform?
  split
  · exact .ok _
  · split
    · exact .ok _
    · exact .error trivial

lemma ownFaults_ofTag : OwnFaults (ofTag tag) := by
  unfold ofTag
  refine .bind (ownFaults_transform? tag) fun transform => ?_
  refine .bind (ownFaults_coordinate? ..) fun x₁ => ?_
  refine .bind (ownFaults_coordinate? ..) fun y₁ => ?_
  refine .bind (ownFaults_coordinate? ..) fun x₂ => ?_
  refine .bind (ownFaults_coordinate? ..) fun y₂ => ?_
  refine .bind (ownFaults_coordinate? ..) fun cx => ?_
  refine .bind (ownFaults_coordinate? ..) fun cy => ?_
  refine .bind (ownFaults_coordinate? ..) fun r => ?_
  refine .bind (ownFaults_coordinate? ..) fun fx => ?_
  exact .bind (ownFaults_coordinate? ..) fun fy => .ok _

end GradientAttributes

/-- A gradient is read with errors of its element's own alone. -/
lemma Gradient.ownFaults_ofElement (kind : GradientKind) (id : String) (e : Xml.Element) :
    OwnFaults (ofElement kind id e) := by
  unfold ofElement
  exact .bind (GradientAttributes.ownFaults_ofTag e.tag) fun attributes => .ok _

/-! ## Drawings -/

/-- The element errors of a drawing are elements' own. -/
def Drawing.ReportsOwn (d : Drawing) : Prop :=
  ∀ tag id? e, .element tag id? e ∈ d.diagnostics → e.IsOwn

namespace Drawing

/-- A single command with errors of its element's own. -/
lemma reportsOwn_single {tag : Xml.Tag} {m : Matrix} {d : Option Drawable} {es : List ElementError}
    (hes : ∀ e ∈ es, e.IsOwn) : (single tag m d es).ReportsOwn := by
  intro name id? e he
  obtain ⟨e', he', h⟩ := List.mem_map.mp he
  cases h
  exact hes e he'

/-- A report of an error of the element's own. -/
lemma reportsOwn_fault {tag : Xml.Tag} {e : ElementError} (he : e.IsOwn) :
    (reports [fault tag e]).ReportsOwn := by
  intro name id? e' he'
  cases List.mem_singleton.mp he'
  exact he

/-- A drawing that may fail by an error of the element's own. -/
lemma reportsOwn_orFault {tag : Xml.Tag} {x : Except ElementError Drawing} (hx : OwnFaults x)
    (hd : ∀ d, x = .ok d → d.ReportsOwn) : (orFault tag x).ReportsOwn := by
  cases x with
  | error e => exact reportsOwn_fault (hx.isOwn rfl)
  | ok d => exact hd d rfl

end Drawing

namespace Stage

variable (stage : Stage) (place : Place)

/-- The drawing of a shape reports errors of its element's own alone. -/
lemma reportsOwn_shape (shape : Shape) (tag : Xml.Tag) :
    (Drawing.orFault tag (stage.shape shape tag place)).ReportsOwn := by
  have hsubpaths := Shape.ownFaults_subpaths tag (stage.sizes place.style.fontSize) shape
  unfold Stage.shape
  refine Drawing.reportsOwn_orFault (hsubpaths.bind fun _ => .ok _) ?_
  dsimp only
  intro d hd
  cases hs : shape.subpaths tag (stage.sizes place.style.fontSize) with
  | error e =>
    rw [hs] at hd
    cases hd
  | ok subpaths =>
    rw [hs] at hd
    cases hd
    exact Drawing.reportsOwn_single fun e he => PathCommand.isOwn_of_mem_ofSubpaths _ _ _ _ he

/-- The drawing of a text reports errors of its element's own alone. -/
lemma reportsOwn_text (e : Xml.Element) :
    (Drawing.orFault e.tag (stage.text e place)).ReportsOwn := by
  have htext := TextCommand.ownFaults_ofElement e place.style stage.registry
    (stage.sizes place.style.fontSize) stage.fonts
  unfold Stage.text
  refine Drawing.reportsOwn_orFault (htext.bind fun _ => .ok _) ?_
  dsimp only
  intro d hd
  cases hr : TextCommand.ofElement e place.style stage.registry
      (stage.sizes place.style.fontSize) stage.fonts with
  | error err =>
    rw [hr] at hd
    cases hd
  | ok r =>
    rw [hr] at hd
    cases hd
    exact Drawing.reportsOwn_single fun err herr => TextCommand.isOwn_of_mem_ofElement hr herr

/-- The drawing of an image reports errors of its element's own alone. -/
lemma reportsOwn_image (tag : Xml.Tag) :
    (Drawing.orFault tag (stage.image tag place)).ReportsOwn := by
  have himage := ImageCommand.ownFaults_ofTag tag (stage.sizes place.style.fontSize)
  unfold Stage.image
  split_ifs with hhidden
  · intro name id? e he
    cases he
  · refine Drawing.reportsOwn_orFault (himage.bind fun _ => .ok _) ?_
    intro d hd
    cases hc : ImageCommand.ofTag tag (stage.sizes place.style.fontSize) with
    | error e =>
      rw [hc] at hd
      cases hd
    | ok command =>
      rw [hc] at hd
      cases hd
      exact Drawing.reportsOwn_single (by simp)

/-- What is set aside is reported as the element's own fault. -/
lemma reportsOwn_aside {tag : Xml.Tag} {d : Drawing} (h : aside? tag = some d) : d.ReportsOwn := by
  unfold aside? at h
  split at h
  · cases h
    intro name id? e he
    cases he
  · cases h
    intro name id? e he
    cases he
  · cases h
    intro name id? e he
    cases List.mem_singleton.mp he
  · cases h
    exact Drawing.reportsOwn_fault trivial
  · cases h

/-- What is reported on entering an element is its own fault. -/
lemma reportsOwn_entryReports (tag : Xml.Tag) :
    (Drawing.reports (entryReports tag)).ReportsOwn := by
  intro name id? e he
  have hunsupported : ∀ d, .element name id? e ∉ unsupported tag d := by
    intro d h
    obtain ⟨feature, _, hf⟩ := List.mem_map.mp h
    cases hf
  unfold entryReports at he
  simp only [Drawing.diagnostics_reports] at he
  split_ifs at he with hdisplay
  · cases he
  · split at he
    · rename_i err herr
      rcases List.mem_append.mp he with h | h
      · exact absurd h (hunsupported _)
      · cases List.mem_singleton.mp h
        exact (ownFaults_localMatrix tag).isOwn ‹_›
    · exact absurd he (hunsupported _)

/-! ## The faults of a use -/

variable {stage} {tag : Xml.Tag} {ancestors : List Xml.Tag} {style : Style} {chain : List String}

/-- A use that is not expanded has a fault of its own, or leads back, or is too deep. -/
theorem expansion_eq_error {err : ElementError}
    (h : stage.expansion tag ancestors style chain = .error err) :
    err.IsOwn ∨ ∃ id target, tag.reference? = some id ∧ stage.registry.element? id = some target ∧
      ((err = .referenceCycle id ∧ LeadsBack tag ancestors chain id target.1.tag) ∨
        (err = .reuseTooDeep stage.reuseLimit ∧ ¬ LeadsBack tag ancestors chain id target.1.tag ∧
          stage.reuseLimit ≤ chain.length)) := by
  unfold expansion at h
  split at h
  · cases h
    exact Or.inl trivial
  · rename_i id hid
    split at h
    · cases h
      exact Or.inl trivial
    · rename_i target targetAncestors htarget
      split_ifs at h with hcycle hdeep
      · cases h
        exact Or.inr ⟨id, _, hid, htarget, Or.inl ⟨rfl, leadsBack_iff.mp hcycle⟩⟩
      · cases h
        exact Or.inr ⟨id, _, hid, htarget, Or.inr ⟨rfl, mt leadsBack_iff.mpr hcycle, hdeep⟩⟩
      · exact Or.inl ((ownFaults_useLengths tag _).map.isOwn h)

/-- A use is reported as a cycle exactly if its reference is found and leads back. -/
theorem expansion_eq_referenceCycle_iff {id : String} :
    stage.expansion tag ancestors style chain = .error (.referenceCycle id) ↔
      ∃ target, tag.reference? = some id ∧ stage.registry.element? id = some target ∧
        LeadsBack tag ancestors chain id target.1.tag := by
  constructor
  · intro h
    rcases expansion_eq_error h with hown | ⟨id', target, hid, htarget, ⟨herr, hback⟩ |
      ⟨herr, -, -⟩⟩
    · exact hown.elim
    · cases herr
      exact ⟨target, hid, htarget, hback⟩
    · cases herr
  · rintro ⟨⟨target, targetAncestors⟩, hid, htarget, hback⟩
    unfold expansion
    simp only [hid, htarget, if_pos (leadsBack_iff.mpr hback)]

end Stage

end SvgDisplayList
