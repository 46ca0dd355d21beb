import SvgDisplayList.Proofs.Drawing.Content

/-!
# What places and identifiers do not matter to

Elements with the same plain tag have the same content (`Xml.Tag.SameContent.of_plain_eq`) and make
the same declarations.  So a copy of an element without its identifier is entered as the element is,
and draws the same, provided that gradients are the same.
-/

namespace SvgDisplayList

variable {t t' : Xml.Tag}

namespace Xml.Tag.SameContent

/-- Tags that are plainly the same have the same content. -/
lemma of_plain_eq (h : t'.plain = t.plain) : SameContent t t' where
  space?_eq := congrArg (·.space?) h
  name_eq := congrArg (·.name) h
  attributeIn?_eq := by
    intro space name hname
    have hid : space ≠ none ∨ name ≠ "id" :=
      hname.imp_right fun hnot heq => hnot (heq ▸ List.mem_cons_self)
    rw [← t'.attributeIn?_plain hid, h, t.attributeIn?_plain hid]

/-- A tag has its content at no place. -/
lemma unnumbered (t : Tag) : SameContent t t.unnumbered := of_plain_eq t.plain_unnumbered

/-- A tag has its content without its identifier. -/
lemma anonymous (t : Tag) : SameContent t t.anonymous := of_plain_eq t.plain_anonymous

end Xml.Tag.SameContent

/-! ## Kinds -/

/-- Elements with the same plain tag are of the same kind. -/
lemma ElementKind.ofTag_eq_of_plain_eq (h : t'.plain = t.plain) : ofTag t' = ofTag t :=
  ofTag_congr (.of_plain_eq h)

/-- A use has the name of uses. -/
lemma ElementKind.name_eq_of_use {t : Xml.Tag} (h : ElementKind.ofTag t = .use) :
    t.name = "use" := by
  have hname : ∀ name, ElementKind.ofName name = .use → name = "use" := by
    intro name h
    unfold ofName at h
    split at h
    · cases h
    · split_ifs at h with hgroup hswitch htext himage huse
      exact huse
  unfold ofTag at h
  split at h
  · exact hname _ h
  · split_ifs at h
    exact hname _ h

/-! ## Declarations -/

/-- An element makes the declarations of its presentation attributes and its style. -/
lemma Declarations.ofTag_congr
    (h : ∀ name ∈ presentationAttributes, t'.attribute? name = t.attribute? name)
    (hstyle : t'.attribute? "style" = t.attribute? "style") : ofTag t' = ofTag t := by
  unfold ofTag
  rw [hstyle]
  cases t.attribute? "style" with
  | none => exact List.foldl_ext _ _ _ fun d name hname => by rw [h name hname]
  | some style =>
    exact congrArg (fun d : Declarations => d.addStyle style)
      (List.foldl_ext _ _ _ fun d name hname => by rw [h name hname])

/-- Elements with the same plain tag make the same declarations. -/
lemma Declarations.ofTag_eq_of_plain_eq (h : t'.plain = t.plain) : ofTag t' = ofTag t := by
  have hattribute : ∀ name, name ≠ "id" → t'.attribute? name = t.attribute? name := by
    intro name hname
    rw [← t'.attribute?_plain hname, h, t.attribute?_plain hname]
  have hnames : ∀ name ∈ presentationAttributes, name ≠ "id" := by decide
  exact ofTag_congr (fun name hname => hattribute name (hnames name hname))
    (hattribute "style" (by decide))

/-- Elements with the same plain tag are entered alike. -/
lemma Stage.entered?_eq_of_plain_eq (h : t'.plain = t.plain) (stage : Stage) (s : Style) :
    stage.entered? t' s = stage.entered? t s :=
  stage.entered?_congr (Declarations.ofTag_eq_of_plain_eq h)
    ((Xml.Tag.SameContent.of_plain_eq h).attribute?_eq (by decide))

/-- Elements with the same plain tag make the same stop. -/
lemma GradientStop.ofTag_eq_of_plain_eq (h : t'.plain = t.plain) (floor : Float32) :
    ofTag floor t' = ofTag floor t := by
  unfold ofTag
  rw [Declarations.ofTag_eq_of_plain_eq h,
    (Xml.Tag.SameContent.of_plain_eq h).attribute?_eq (by decide)]

/-- Elements one by one with the same plain tag make the same stops. -/
lemma GradientStop.ramp_eq_of_plain_eq {es es' : List Xml.Element}
    (h : List.Forall₂ (fun e e' => e'.tag.plain = e.tag.plain) es es') (floor : Float32) :
    ramp floor es' = ramp floor es :=
  ramp_congr (h.imp fun _ _ hplain => ofTag_eq_of_plain_eq hplain) floor

end SvgDisplayList
