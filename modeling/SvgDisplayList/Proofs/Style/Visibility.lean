import SvgDisplayList.Proofs.Style.Property

/-!
# The visibility of styles

Whether a style is visible is decided by the nearest declaration of visibility above or at its
element (`Style.visible_derive_ofTag`), and nothing else in a style depends on it: a style that is
derived without any declaration of visibility is the style that is derived with them, made visible
(`Style.withVisible_derive`).
-/

namespace SvgDisplayList

/-- The property of being visible. -/
def visibilityProperty : String := "visibility"

/-- What a value says about visibility: `hidden` and `collapse` hide, `inherit` says nothing, and
every other value shows. -/
def visibilityOf? (value : String) : Option Bool :=
  if Text.sameIgnoringCase value.toList "inherit".toList then none
  else some (value != "hidden" && value != "collapse")

/-- What declarations say about visibility. -/
def Declarations.visibility? (d : Declarations) : Option Bool :=
  (d.get? visibilityProperty).bind visibilityOf?

/-- Whether an element is visible, given its tag and the tags from which it inherits, nearest first.
The nearest declaration decides; without any the element is visible. -/
def visibleAlong (path : List Xml.Tag) : Bool :=
  (path.findSome? fun tag => (Declarations.ofTag tag).visibility?).getD true

/-- What an element does not say itself it inherits. -/
lemma visibleAlong_cons (tag : Xml.Tag) (path : List Xml.Tag) :
    visibleAlong (tag :: path) =
      (Declarations.ofTag tag).visibility?.getD (visibleAlong path) := by
  unfold visibleAlong
  rw [List.findSome?_cons]
  cases (Declarations.ofTag tag).visibility? <;> rfl

namespace Style

/-- The style made visible or hidden. -/
def withVisible (s : Style) (visible : Bool) : Style := { s with visible }

variable (s : Style) (sizes : ReferenceSizes) (visible : Bool)

@[simp] lemma visible_withVisible : (s.withVisible visible).visible = visible := rfl

@[simp] lemma fontSize_withVisible : (s.withVisible visible).fontSize = s.fontSize := rfl

/-! ## One declaration -/

/-- A declaration of another property ignores visibility. -/
lemma withVisible_declare {name : String} (h : name ≠ visibilityProperty) (value : String) :
    (s.declare sizes name value).withVisible visible =
      (s.withVisible visible).declare sizes name value := by
  unfold declare
  dsimp only
  by_cases hinherit : Text.sameIgnoringCase value.toList "inherit".toList = true
  · rw [if_pos hinherit, if_pos hinherit]
  · rw [if_neg hinherit, if_neg hinherit]
    -- one case for each property, in the order in which they are told apart
    split
    case h_5 => split <;> rfl
    case h_7 => split <;> rfl
    case h_10 => split <;> rfl
    case h_14 => split <;> rfl
    case h_20 => exact absurd rfl h
    all_goals rfl

/-- A declaration of visibility says what its value says. -/
lemma declare_visibility (value : String) : s.declare sizes visibilityProperty value =
    s.withVisible ((visibilityOf? value).getD s.visible) := by
  unfold declare visibilityOf?
  dsimp only
  split_ifs <;> rfl

/-! ## All declarations of an element -/

/-- Declarations of visibility can be left out if visibility is set anyway. -/
lemma withVisible_declareAll (entries : Keyed String) :
    (entries.foldl (fun s e => s.declare sizes e.1 e.2) s).withVisible visible =
      (Keyed.without visibilityProperty entries).foldl (fun s e => s.declare sizes e.1 e.2)
        (s.withVisible visible) := by
  unfold Keyed.without
  induction entries generalizing s with
  | nil => rfl
  | cons e entries ih =>
    rw [List.foldl_cons, ih]
    by_cases he : e.1 = visibilityProperty
    · rw [List.filter_cons_of_neg (by simpa using he), he, declare_visibility]
      rfl
    · rw [List.filter_cons_of_pos (by simpa using he), List.foldl_cons,
        withVisible_declare _ _ _ he]

/-- The style of an element apart from its visibility is derived without its declarations of
visibility. -/
theorem withVisible_derive (d : Declarations) :
    (s.derive d sizes).withVisible visible =
      (s.withVisible visible).derive (d.without visibilityProperty) sizes := by
  have hsize : (d.without visibilityProperty).get? "font-size" = d.get? "font-size" :=
    d.get?_without visibilityProperty (by decide)
  have hsized : (s.withVisible visible).withFontSize (d.without visibilityProperty) =
      (s.withFontSize d).withVisible visible := by
    unfold withFontSize
    rw [hsize, fontSize_withVisible]
    cases (d.get? "font-size").bind (fontSize? s.fontSize) <;> rfl
  unfold derive
  dsimp only
  rw [withVisible_declareAll, hsized]
  rfl

/-- The visibility of an element is what its declarations say, or else that of its parent. -/
theorem visible_derive {d : Declarations} (h : d.Distinct) :
    (s.derive d sizes).visible = d.visibility?.getD s.visible := by
  have hget : d.valueOf? .visible = d.get? visibilityProperty := Declarations.valueOf?_eq_get? rfl
  have honce : d.DeclaresOnce .visible := h.declaresOnce fun hp => by cases hp
  have hvisible : (s.derive d sizes).visible = _ := of_derive honce
  rw [hvisible, hget]
  unfold Declarations.visibility?
  cases d.get? visibilityProperty with
  | none => rfl
  | some value =>
    change (if inherits value = true then s.visible else
      value != "hidden" && value != "collapse") = (visibilityOf? value).getD s.visible
    unfold visibilityOf? inherits
    split_ifs <;> rfl

/-- The nearest declaration along a path of elements decides whether the style is visible. -/
theorem visible_derive_ofTag {path : List Xml.Tag} (h : s.visible = visibleAlong path)
    (tag : Xml.Tag) :
    (s.derive (.ofTag tag) sizes).visible = visibleAlong (tag :: path) := by
  rw [visible_derive s sizes (Declarations.distinct_ofTag tag), h, visibleAlong_cons]

end Style

end SvgDisplayList
