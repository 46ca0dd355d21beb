import SvgDisplayList.Proofs.Drawing.Contribution
import SvgDisplayList.Proofs.Xml.Copies

/-!
# What an element draws apart from its style

Tags have the same content if they differ in nothing but their places, their identifiers and what
they declare about style (`Xml.Tag.SameContent`).  Everything that is computed from a tag, its
declarations and reports apart, is computed from its content: what kind of element it is, what it
refers to, its lengths, its outline, its image, the attributes of a gradient and the frame of a root
element.  So elements of the same content draw the same in the same style
(`Stage.drawable?_congr`), provided that gradients are the same.
-/

namespace SvgDisplayList

namespace Xml.Tag

/-- The attributes that name and style an element. -/
def stylingAttributes : List String := "id" :: "style" :: Declarations.presentationAttributes

/-- Tags of the same name and with the same attributes, but for those that name and style an
element. -/
structure SameContent (t t' : Tag) : Prop where
  space?_eq : t'.space? = t.space?
  name_eq : t'.name = t.name
  attributeIn?_eq : ∀ space name, space ≠ none ∨ name ∉ stylingAttributes →
    t'.attributeIn? space name = t.attributeIn? space name

namespace SameContent

variable {t t' : Tag} {name : String} (axis : Axis) (sizes : ReferenceSizes)

/-- An attribute that neither names nor styles the element. -/
lemma attribute?_eq (h : SameContent t t') (hname : name ∉ stylingAttributes) :
    t'.attribute? name = t.attribute? name :=
  h.attributeIn?_eq none name (Or.inr hname)

/-! ## Lengths and references -/

lemma href?_eq (h : SameContent t t') : t'.href? = t.href? := by
  unfold href?
  rw [h.attribute?_eq (by decide), h.attributeIn?_eq _ _ (Or.inl (Option.some_ne_none _))]

lemma reference?_eq (h : SameContent t t') : t'.reference? = t.reference? := by
  unfold reference?
  rw [h.href?_eq]

lemma length?_eq (h : SameContent t t') (hname : name ∉ stylingAttributes) :
    t'.length? name axis sizes = t.length? name axis sizes := by
  unfold length?
  rw [h.attribute?_eq hname]

lemma length_eq (h : SameContent t t') (hname : name ∉ stylingAttributes) :
    t'.length name axis sizes = t.length name axis sizes := by
  unfold length
  rw [h.length?_eq axis sizes hname]

lemma extent_eq (h : SameContent t t') (hname : name ∉ stylingAttributes) :
    t'.extent name axis sizes = t.extent name axis sizes := by
  unfold extent
  rw [h.length_eq axis sizes hname]

end SameContent

end Xml.Tag

open Xml.Tag (SameContent)

variable {t t' : Xml.Tag}

/-! ## Kinds and uses -/

/-- Elements of the same content are of the same kind. -/
lemma ElementKind.ofTag_congr (h : SameContent t t') : ofTag t' = ofTag t := by
  unfold ofTag
  rw [h.space?_eq, h.name_eq]

namespace Stage

/-- An element is entered as its declarations and its transform say. -/
lemma entered?_congr {t : Xml.Tag} (stage : Stage) {s : Style}
    (hd : Declarations.ofTag t' = Declarations.ofTag t)
    (hm : t'.attribute? "transform" = t.attribute? "transform") :
    stage.entered? t' s = stage.entered? t s := by
  unfold entered? localMatrix
  rw [hd, hm]

/-- Whether a switch may choose an element. -/
lemma isCandidate_congr (h : SameContent t t') : isCandidate t' = isCandidate t := by
  unfold isCandidate
  rw [ElementKind.ofTag_congr h, h.attribute?_eq (by decide)]

/-- A switch chooses alike among nodes that are changed apart from their content. -/
lemma isChoice_mapTags {f : Xml.Tag → Xml.Tag} (hf : ∀ t, SameContent t (f t)) (n : Xml.Node) :
    isChoice (n.mapTags f) = isChoice n := by
  cases n with
  | text s => rfl
  | element tag children =>
    rw [Xml.Node.mapTags_element]
    exact isCandidate_congr (hf tag)

/-- Whether an element is drawn where it stands. -/
lemma aside?_isSome_congr (h : ElementKind.ofTag t' = ElementKind.ofTag t) :
    (aside? t').isSome = (aside? t).isSome := by
  unfold aside?
  rw [h]
  cases ElementKind.ofTag t <;> rfl

/-- The map that fits a symbol into the box of its use. -/
lemma symbolFit_congr (h : SameContent t t') (width height : Option Float32) :
    symbolFit t' width height = symbolFit t width height := by
  unfold symbolFit
  rw [h.attribute?_eq (by decide), h.attribute?_eq (by decide)]

/-- The lengths of a use. -/
lemma useLengths_congr (h : SameContent t t') (sizes : ReferenceSizes) :
    useLengths t' sizes = useLengths t sizes := by
  unfold useLengths
  simp (disch := decide) only [h.length_eq, h.length?_eq]

end Stage

/-! ## Shapes, texts and images -/

/-- The outline of a shape. -/
lemma Shape.subpaths_congr (h : SameContent t t') (shape : Shape) (sizes : ReferenceSizes) :
    shape.subpaths t' sizes = shape.subpaths t sizes := by
  have hpath : pathSubpaths t' = pathSubpaths t := by
    unfold pathSubpaths
    rw [h.attribute?_eq (by decide)]
  have hpoints : points t' = points t := by
    unfold points
    rw [h.attribute?_eq (by decide)]
  have houtline : shape.outline t' sizes = shape.outline t sizes := by
    unfold outline
    cases shape <;>
      simp (disch := decide) only [h.length_eq, h.length?_eq, h.extent_eq, hpoints]
  unfold subpaths
  cases shape with
  | path => exact hpath
  | rect | circle | ellipse | line | polyline | polygon =>
    exact congrArg (Except.map Outline.subpaths) houtline

/-- The position of a text. -/
lemma TextCommand.positionOf_congr (h : SameContent t t') (sizes : ReferenceSizes) :
    positionOf t' sizes = positionOf t sizes := by
  have hfirst : ∀ name, name ∉ Xml.Tag.stylingAttributes → ∀ axis,
      firstLength t' name axis sizes = firstLength t name axis sizes := by
    intro name hname axis
    unfold firstLength
    rw [h.attribute?_eq hname]
  unfold positionOf
  simp (disch := decide) only [hfirst]

/-- The box of an image. -/
lemma ImageCommand.ofTag_congr (h : SameContent t t') (sizes : ReferenceSizes) :
    ofTag t' sizes = ofTag t sizes := by
  unfold ofTag
  simp (disch := decide) only [h.length_eq, h.length?_eq, h.href?_eq]

/-! ## Paints -/

variable {registry registry' : Registry}

/-- A paint depends on the gradients among the definitions alone. -/
lemma PaintScope.paint_congr (h : ∀ id, registry'.gradient? id = registry.gradient? id)
    (sizes : ReferenceSizes) (box? : Option Box) (source : PaintSource) (opacity : Float32)
    (style : Style) :
    ((⟨registry', sizes, box?⟩ : PaintScope).paint source opacity style).1 =
      ((⟨registry, sizes, box?⟩ : PaintScope).paint source opacity style).1 := by
  have hserver : ∀ id opacity fallback,
      ((⟨registry', sizes, box?⟩ : PaintScope).server id opacity fallback).1 =
        ((⟨registry, sizes, box?⟩ : PaintScope).server id opacity fallback).1 := by
    intro id opacity fallback
    unfold server
    rw [h id]
    cases registry.gradient? id with
    | some g => rfl
    | none =>
      -- what stands under the identifier decides what is reported, and nothing else
      dsimp only
      cases registry'.element? id <;> cases registry.element? id <;> rfl
  cases source with
  | none | color c | currentColor => rfl
  | server id fallback => exact hserver _ _ _

/-- The command of an outline depends on the gradients among the definitions alone. -/
lemma PathCommand.ofSubpaths_congr (h : ∀ id, registry'.gradient? id = registry.gradient? id)
    (subpaths : List Subpath) (style : Style) (sizes : ReferenceSizes) :
    (ofSubpaths subpaths style registry' sizes).1 =
      (ofSubpaths subpaths style registry sizes).1 := by
  have hfill : ((⟨registry', sizes, bounds? subpaths⟩ : PaintScope).fill style).1 =
      ((⟨registry, sizes, bounds? subpaths⟩ : PaintScope).fill style).1 := by
    unfold PaintScope.fill
    exact congrArg (Option.map fun p => (⟨p, style.fillRule⟩ : Fill))
      (PaintScope.paint_congr h _ _ _ _ _)
  have hstroke : ((⟨registry', sizes, bounds? subpaths⟩ : PaintScope).stroke style).1 =
      ((⟨registry, sizes, bounds? subpaths⟩ : PaintScope).stroke style).1 := by
    unfold PaintScope.stroke
    split_ifs
    · exact congrArg (Option.map _) (PaintScope.paint_congr h _ _ _ _ _)
    · rfl
  unfold ofSubpaths
  split_ifs
  · rfl
  · simp only [hfill, hstroke]

/-- The command of a text depends on its content, its character data and the gradients among the
definitions. -/
lemma TextCommand.ofElement_congr {e e' : Xml.Element}
    (h : ∀ id, registry'.gradient? id = registry.gradient? id) (htag : SameContent e.tag e'.tag)
    (hcharacters : e'.characters = e.characters) (style : Style) (sizes : ReferenceSizes)
    (fonts : FontSource) :
    (ofElement e' style registry' sizes fonts).map (·.1) =
      (ofElement e style registry sizes fonts).map (·.1) := by
  unfold ofElement
  rw [positionOf_congr htag, hcharacters]
  cases positionOf e.tag sizes with
  | error err => rfl
  | ok position =>
    simp only [bind, Except.bind]
    split_ifs
    · rfl
    · simp only [pure, Except.pure, Except.map, PaintScope.paint_congr h]

/-- What an element draws that has no children of its own depends on its content, on its character
data if it is a text, and on the gradients among the definitions. -/
theorem Stage.drawable?_congr {e e' : Xml.Element}
    (h : ∀ id, registry'.gradient? id = registry.gradient? id) (htag : SameContent e.tag e'.tag)
    (hcharacters : ElementKind.ofTag e.tag = .text → e'.characters = e.characters) (style : Style)
    (fonts : FontSource) (width height : Float32) :
    drawable? e' style registry' fonts width height =
      drawable? e style registry fonts width height := by
  unfold drawable?
  rw [ElementKind.ofTag_congr htag]
  cases hk : ElementKind.ofTag e.tag with
  | shape s =>
    simp only [Shape.subpaths_congr htag, PathCommand.ofSubpaths_congr h]
  | text =>
    have hcommand :=
      TextCommand.ofElement_congr h htag (hcharacters hk) style
        ⟨style.fontSize, width, height⟩ fonts
    have hfirst : ∀ r : Except ElementError (Option TextCommand × List ElementError),
        (r.toOption.bind fun r => r.1.map Drawable.text) =
          (r.map (·.1)).toOption.bind fun c => c.map .text := by
      intro r
      cases r <;> rfl
    simp only [hfirst, hcommand]
  | image =>
    simp only [ImageCommand.ofTag_congr htag]
  | group | switch | use | definition | unsupported | ignored | unknown => rfl

/-! ## Gradients and the root element -/

/-- The attributes of a gradient. -/
lemma GradientAttributes.ofTag_congr (h : SameContent t t') : ofTag t' = ofTag t := by
  have hcoordinate : ∀ name, name ∉ Xml.Tag.stylingAttributes →
      coordinate? t' name = coordinate? t name := by
    intro name hname
    unfold coordinate?
    rw [h.attribute?_eq hname]
  have htransform : transform? t' = transform? t := by
    unfold transform?
    rw [h.attribute?_eq (by decide)]
  unfold ofTag
  simp (disch := decide) only [hcoordinate, htransform, h.attribute?_eq]

/-- Elements one by one that make the same stop make the same stops. -/
lemma GradientStop.ramp_congr {es es' : List Xml.Element}
    (h : List.Forall₂ (fun e e' => ∀ floor, ofTag floor e'.tag = ofTag floor e.tag) es es')
    (floor : Float32) : ramp floor es' = ramp floor es := by
  induction h generalizing floor with
  | nil => rfl
  | cons htag _ ih =>
    unfold ramp
    rw [htag]
    dsimp only
    rw [ih]

/-- The frame of a root element. -/
lemma Frame.ofRoot_congr (h : SameContent t t') (settings : Settings) :
    ofRoot settings t' = ofRoot settings t := by
  have hsize : ownSize? t' = ownSize? t := by
    unfold ownSize?
    rw [h.attribute?_eq (by decide), h.attribute?_eq (by decide)]
  unfold ofRoot
  rw [hsize, h.attribute?_eq (by decide), h.attribute?_eq (by decide)]

end SvgDisplayList
