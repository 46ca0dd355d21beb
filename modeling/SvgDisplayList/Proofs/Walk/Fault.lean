import SvgDisplayList.Proofs.Walk.Run

/-!
# The error that a drawing ends in

The drawing of an element ends in an error if the element is unknown, if its transform is faulty, or
if what it draws in its own style is (`Stage.fault?`).  It is nothing but reports then: those that
the element makes before anything can go wrong with it, and that of the error
(`Stage.node_eq_of_fault`).  On the way there the walk has done no more than to enter the element
(`Stage.perform_node_of_fault`, `Stage.perform_content_of_fault`); a use that cannot be expanded
(`Stage.Unusable`) has not moved anything.
-/

namespace SvgDisplayList

/-- The error of a result that is one. -/
def ElementError.ofResult? {α : Type} : Except ElementError α → Option ElementError
  | .ok _ => none
  | .error err => some err

/-- A result has an error exactly if it is one. -/
lemma ElementError.ofResult?_eq_some_iff {α : Type} {r : Except ElementError α}
    {err : ElementError} : ofResult? r = some err ↔ r = .error err := by
  cases r with
  | ok a => exact ⟨fun h => (by cases h), fun h => (by cases h)⟩
  | error err' => exact ⟨fun h => (by cases h; rfl), fun h => (by cases h; rfl)⟩

namespace Stage

variable (stage : Stage)

/-- The error that the content of an element ends in that has been entered, its place being that of
its own style. -/
def contentFault? (e : Xml.Element) (ancestors : List Xml.Tag) (place : Place) :
    Option ElementError :=
  match ElementKind.ofTag e.tag with
  | .shape s => ElementError.ofResult? (stage.shape s e.tag place)
  | .text => ElementError.ofResult? (stage.text e place)
  | .image => ElementError.ofResult? (stage.image e.tag place)
  | .use => ElementError.ofResult? (stage.expansion e.tag ancestors place.style place.chain)
  | _ => none

/-- The error that the drawing of an element ends in. -/
def fault? (e : Xml.Element) (ancestors : List Xml.Tag) (place : Place) : Option ElementError :=
  match ElementKind.ofTag e.tag with
  | .ignored | .definition | .unsupported => none
  | .unknown => some (.unsupportedElement e.name)
  | _ =>
    let d := Declarations.ofTag e.tag
    if d.displayNone then none
    else
      match localMatrix e.tag with
      | .error err => some err
      | .ok own =>
        stage.contentFault? e ancestors
          ({ place with style := place.style.derive d (stage.sizes initialFontSize) }.moved own)

/-- The reports that an element makes before anything can go wrong with it: it asks for features
without effect.  An unknown element is not looked at that closely. -/
def preliminary (tag : Xml.Tag) : List Diagnostic :=
  match ElementKind.ofTag tag with
  | .unknown => []
  | _ => unsupported tag (Declarations.ofTag tag)

variable {stage} {e : Xml.Element} {ancestors : List Xml.Tag} {place : Place} {style : Style}
  {w : Walk} {err : ElementError}

/-- How the drawing of an element ends in an error: the element is unknown, or its transform is
faulty, or it is entered and its content ends in the error. -/
inductive Fails (stage : Stage) (e : Xml.Element) (ancestors : List Xml.Tag) (place : Place)
    (err : ElementError) : Prop
  | unknown
      (haside : aside? e.tag = some (.reports (preliminary e.tag ++ [Drawing.fault e.tag err])))
  | barred (haside : aside? e.tag = none) (hentered : stage.entered? e.tag place.style = none)
      (hreports : entryReports e.tag = preliminary e.tag ++ [Drawing.fault e.tag err])
  | inside {own : Matrix} {style : Style} (haside : aside? e.tag = none)
      (hown : localMatrix e.tag = .ok own)
      (hentered : stage.entered? e.tag place.style = some (style, own))
      (hreports : entryReports e.tag = preliminary e.tag)
      (hcontent : stage.contentFault? e ancestors ({ place with style }.moved own) = some err)

/-- There is no other way in which the drawing of an element ends in an error. -/
lemma fails_of_fault (h : stage.fault? e ancestors place = some err) :
    stage.Fails e ancestors place err := by
  -- an element that is drawn where it stands
  have hdrawn : aside? e.tag = none →
      preliminary e.tag = unsupported e.tag (Declarations.ofTag e.tag) →
      (if (Declarations.ofTag e.tag).displayNone then none
        else match localMatrix e.tag with
          | .error err => some err
          | .ok own =>
            stage.contentFault? e ancestors ({ place with
              style := place.style.derive (Declarations.ofTag e.tag)
                (stage.sizes initialFontSize) }.moved own)) = some err →
      stage.Fails e ancestors place err := by
    intro haside hpreliminary hfault
    have hentered : stage.entered? e.tag place.style = (localMatrix e.tag).toOption.map fun m =>
        (place.style.derive (Declarations.ofTag e.tag) (stage.sizes initialFontSize), m) := by
      unfold entered?
      dsimp only
      split_ifs at hfault ⊢
      rfl
    have hreports : entryReports e.tag = preliminary e.tag ++
        match localMatrix e.tag with
        | .error err => [Drawing.fault e.tag err]
        | .ok _ => [] := by
      unfold entryReports
      dsimp only
      split_ifs at hfault ⊢
      rw [hpreliminary]
      cases localMatrix e.tag with
      | error err => rfl
      | ok own => exact (List.append_nil _).symm
    split_ifs at hfault
    cases hmatrix : localMatrix e.tag with
    | error err' =>
      rw [hmatrix] at hfault hentered hreports
      cases hfault
      exact .barred haside hentered hreports
    | ok own =>
      rw [hmatrix] at hfault hentered hreports
      rw [List.append_nil] at hreports
      exact .inside haside hmatrix hentered hreports hfault
  unfold fault? at h
  cases hkind : ElementKind.ofTag e.tag with
  | group | switch | shape | text | image | use =>
    rw [hkind] at h
    refine hdrawn ?_ ?_ h
    · unfold aside?
      rw [hkind]
    · unfold preliminary
      rw [hkind]
  | unknown =>
    rw [hkind] at h
    cases h
    refine .unknown ?_
    unfold aside? preliminary
    rw [hkind]
    rfl
  | definition | unsupported | ignored =>
    rw [hkind] at h
    cases h

/-! ## Steps -/

/-- The content of an element that ends in an error is its report. -/
lemma perform_content_of_fault (h : stage.contentFault? e ancestors (w.place style) = some err) :
    stage.perform w (.content e ancestors style) =
      w.draw (.reports [Drawing.fault e.tag err]) := by
  unfold contentFault? at h
  simp only [perform]
  cases hkind : ElementKind.ofTag e.tag with
  | shape | text | image =>
    rw [hkind] at h
    dsimp only
    rw [ElementError.ofResult?_eq_some_iff.mp h]
    rfl
  | use =>
    rw [hkind] at h
    have hexpansion : stage.expansion e.tag ancestors style w.chain = .error err :=
      ElementError.ofResult?_eq_some_iff.mp h
    rw [hexpansion]
  | group | switch | definition | unsupported | ignored | unknown =>
    rw [hkind] at h
    cases h

/-- An element whose drawing ends in an error is nothing but reports, the last one of which is that
of the error, or it is entered and its content ends in that error. -/
lemma perform_node_of_fault (h : stage.fault? e ancestors (w.place style) = some err) :
    stage.perform w (.node e.node ancestors style) =
      w.draw (.reports (preliminary e.tag ++ [Drawing.fault e.tag err])) ∨
    ∃ own style', localMatrix e.tag = .ok own ∧
      stage.perform w (.node e.node ancestors style) =
        ((w.draw (.reports (preliminary e.tag))).push own).plan
          [.content e ancestors style', .leave e.tag ancestors] ∧
      stage.contentFault? e ancestors
        (((w.draw (.reports (preliminary e.tag))).push own).place style') = some err := by
  unfold Xml.Element.node
  simp only [perform]
  cases fails_of_fault h with
  | unknown haside =>
    rw [haside]
    exact Or.inl rfl
  | barred haside hentered hreports =>
    have hnone : stage.entered? e.tag style = none := hentered
    unfold enterWalk
    rw [haside, hnone, hreports]
    exact Or.inl rfl
  | @inside own style' haside hown hentered hreports hcontent =>
    have hsome : stage.entered? e.tag style = some (style', own) := hentered
    unfold enterWalk
    rw [haside, hsome, hreports]
    exact Or.inr ⟨own, style', hown, rfl, hcontent⟩

/-! ## Drawings -/

variable {reuse? : Option Reuse}

/-- The content of an element that ends in an error draws its report. -/
lemma content_eq_of_fault (hlevel : reuse?.isSome ↔ place.chain.length < stage.reuseLimit)
    (h : stage.contentFault? e ancestors place = some err) :
    stage.content reuse? e ancestors place = .reports [Drawing.fault e.tag err] := by
  unfold contentFault? at h
  unfold content
  cases hkind : ElementKind.ofTag e.tag with
  | shape | text | image =>
    rw [hkind] at h
    dsimp only
    rw [ElementError.ofResult?_eq_some_iff.mp h]
    rfl
  | use =>
    rw [hkind] at h
    dsimp only
    rw [use_eq_expansion stage _ _ _ _ hlevel, ElementError.ofResult?_eq_some_iff.mp h]
    rfl
  | group | switch | definition | unsupported | ignored | unknown =>
    rw [hkind] at h
    cases h

/-- An element whose drawing ends in an error draws its reports, and nothing else. -/
theorem node_eq_of_fault (hlevel : reuse?.isSome ↔ place.chain.length < stage.reuseLimit)
    (h : stage.fault? e ancestors place = some err) :
    stage.node reuse? e.node ancestors place =
      .reports (preliminary e.tag ++ [Drawing.fault e.tag err]) := by
  unfold Xml.Element.node
  rw [node_element]
  cases fails_of_fault h with
  | unknown haside =>
    rw [haside]
    rfl
  | barred haside hentered hreports =>
    rw [haside, hentered, hreports]
    exact Drawing.append_empty _
  | @inside own style haside _ hentered hreports hcontent =>
    have hlevel' : reuse?.isSome ↔
        ({ place with style }.moved own).chain.length < stage.reuseLimit := hlevel
    have hdrawn := content_eq_of_fault hlevel' hcontent
    rw [haside, hentered, hreports, Option.getD_none, Drawing.reports_append]
    exact congrArg _ hdrawn

/-! ## Uses -/

/-- Whether an attribute of a use that should be a length is there and is none. -/
def HasBadLength (tag : Xml.Tag) (sizes : ReferenceSizes) : Prop :=
  ∃ x ∈ [("x", Axis.horizontal), ("y", .vertical), ("width", .horizontal), ("height", .vertical)],
    ∃ raw, tag.attribute? x.1 = some raw ∧ sizes.resolve x.2 raw.toList = none

/-- Whether a use of its own style cannot be expanded: its reference is missing, resolves to no
element or leads back to the use, or the use is too deep, or one of its lengths is none. -/
inductive Unusable (stage : Stage) (tag : Xml.Tag) (ancestors : List Xml.Tag) (style : Style)
    (chain : List String) : Prop
  | missing (h : tag.reference? = none)
  | unresolved {id : String} (hid : tag.reference? = some id)
      (h : stage.registry.element? id = none)
  | cycle {id : String} {target : Xml.Element} {above : List Xml.Tag}
      (hid : tag.reference? = some id) (htarget : stage.registry.element? id = some (target, above))
      (h : LeadsBack tag ancestors chain id target.tag)
  | tooDeep (h : stage.reuseLimit ≤ chain.length)
  | badLength (h : HasBadLength tag (stage.sizes style.fontSize))

/-- A length cannot be read exactly if it is there and is none. -/
lemma length?_eq_error_iff {tag : Xml.Tag} {name : String} {axis : Axis} {sizes : ReferenceSizes} :
    (∃ err, tag.length? name axis sizes = .error err) ↔
      ∃ raw, tag.attribute? name = some raw ∧ sizes.resolve axis raw.toList = none := by
  unfold Xml.Tag.length?
  cases tag.attribute? name with
  | none => simp
  | some raw => cases hresolve : sizes.resolve axis raw.toList <;> simp [hresolve]

/-- The lengths of a use can be read exactly if none of them is bad. -/
lemma useLengths_eq_ok_iff {tag : Xml.Tag} {sizes : ReferenceSizes} :
    (∃ v, useLengths tag sizes = .ok v) ↔ ¬ HasBadLength tag sizes := by
  have hbad : HasBadLength tag sizes ↔
      (∃ err, tag.length? "x" .horizontal sizes = .error err) ∨
      (∃ err, tag.length? "y" .vertical sizes = .error err) ∨
      (∃ err, tag.length? "width" .horizontal sizes = .error err) ∨
      ∃ err, tag.length? "height" .vertical sizes = .error err := by
    unfold HasBadLength
    simp only [length?_eq_error_iff, List.mem_cons, List.not_mem_nil, or_false, exists_eq_or_imp,
      exists_eq_left]
  rw [hbad]
  unfold useLengths Xml.Tag.length
  -- reading stops at the first length that is bad
  cases tag.length? "x" .horizontal sizes with
  | error err => simp [Except.map, bind, Except.bind]
  | ok x =>
    cases tag.length? "y" .vertical sizes with
    | error err => simp [Except.map, bind, Except.bind]
    | ok y =>
      cases tag.length? "width" .horizontal sizes with
      | error err => simp [Except.map, bind, Except.bind]
      | ok width =>
        cases tag.length? "height" .vertical sizes <;>
          simp [Except.map, bind, Except.bind, pure, Except.pure]

/-- A use is reported instead of being expanded exactly if it cannot be expanded. -/
lemma expansion_eq_error_iff {tag : Xml.Tag} {chain : List String} :
    (∃ err, stage.expansion tag ancestors style chain = .error err) ↔
      stage.Unusable tag ancestors style chain := by
  constructor
  · rintro ⟨err, herr⟩
    by_contra husable
    cases hid : tag.reference? with
    | none => exact husable (.missing hid)
    | some id =>
      cases htarget : stage.registry.element? id with
      | none => exact husable (.unresolved hid htarget)
      | some target =>
        have hback : ¬ LeadsBack tag ancestors chain id target.1.tag := fun h =>
          husable (.cycle hid htarget h)
        have hdeep : chain.length < stage.reuseLimit := Nat.lt_of_not_le fun h =>
          husable (.tooDeep h)
        obtain ⟨⟨x, y, width, height⟩, hlengths⟩ := useLengths_eq_ok_iff.mpr fun h =>
          husable (.badLength h)
        have hok := expansion_eq_ok_iff (x := ⟨id, target.1, target.2, x, y, width, height⟩).mpr
          ⟨hid, htarget, hback, hdeep, hlengths⟩
        rw [hok] at herr
        cases herr
  · intro hunusable
    cases hx : stage.expansion tag ancestors style chain with
    | error err => exact ⟨err, rfl⟩
    | ok x =>
      obtain ⟨hid, htarget, hback, hdeep, hlengths⟩ := expansion_eq_ok_iff.mp hx
      exfalso
      cases hunusable with
      | missing h => simp [h] at hid
      | unresolved hid' h =>
        obtain rfl := Option.some.inj (hid.symm.trans hid')
        rw [h] at htarget
        cases htarget
      | cycle hid' htarget' h =>
        obtain rfl := Option.some.inj (hid.symm.trans hid')
        cases htarget.symm.trans htarget'
        exact hback h
      | tooDeep h => exact absurd hdeep (Nat.not_lt.mpr h)
      | badLength h => exact useLengths_eq_ok_iff.mp ⟨_, hlengths⟩ h

/-- The drawing of a use that is entered ends in an error exactly if the use cannot be expanded. -/
lemma fault?_use_iff {tag : Xml.Tag} {children : List Xml.Node} {own : Matrix}
    (huse : ElementKind.ofTag tag = .use)
    (hentered : stage.entered? tag place.style = some (style, own)) :
    (∃ err, stage.fault? ⟨tag, children⟩ ancestors place = some err) ↔
      stage.Unusable tag ancestors style place.chain := by
  have hfault : stage.fault? ⟨tag, children⟩ ancestors place =
      ElementError.ofResult? (stage.expansion tag ancestors style place.chain) := by
    unfold entered? at hentered
    unfold fault? contentFault?
    dsimp only at hentered ⊢
    rw [huse]
    dsimp only
    split_ifs at hentered ⊢
    cases hmatrix : localMatrix tag with
    | error err =>
      rw [hmatrix] at hentered
      cases hentered
    | ok own' =>
      rw [hmatrix] at hentered
      cases hentered
      rfl
  simp only [hfault, ElementError.ofResult?_eq_some_iff]
  exact expansion_eq_error_iff

end Stage

end SvgDisplayList
