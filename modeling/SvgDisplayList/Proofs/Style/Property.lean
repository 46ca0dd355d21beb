import SvgDisplayList.Proofs.Geometry.Move
import SvgDisplayList.Proofs.Style.Undeclared
import SvgDisplayList.Proofs.Text.Trim
import SvgDisplayList.Style.Inheritance

/-!
# Properties one by one

The fields of a style are its properties, and a name declares at most one of them
(`Style.Property.ofName?`).  A declaration settles the value of its own property and leaves all
others as they are (`Style.of_declare`); what it settles depends on the inherited value of that
property and, for lengths of strokes, on the reference sizes (`Style.Property.settle`).  So
declarations of different properties commute, and a property of a derived style can be told from
the declaration of that property alone (`Style.of_derive`).

The font size is the exception in the order of things, not in the result: it is settled before the
other properties, because lengths may be multiples of it, and the declarations then leave it alone.
-/

namespace SvgDisplayList

namespace Style

/-! ## Properties -/

/-- The properties of a style. -/
inductive Property where
  | fill | fillOpacity | fillRule | stroke | strokeOpacity | strokeWidth | lineCap | lineJoin
  | miterLimit | dashes | dashOffset | opacity | color | fontFamilies | fontSize | fontWeight
  | slant | decorations | anchor | visible
deriving DecidableEq

/-- Whether a value is the word that leaves a property as it is inherited. -/
def inherits (value : String) : Bool := Text.sameIgnoringCase value.toList "inherit".toList

namespace Property

/-- The values that a property takes. -/
def Value : Property → Type
  | fill | stroke => PaintSource
  | fillOpacity | strokeOpacity | strokeWidth | miterLimit | dashOffset | opacity | fontSize =>
    Float32
  | fillRule => FillRule
  | lineCap => LineCap
  | lineJoin => LineJoin
  | dashes => List Float32
  | color => Color
  | fontFamilies => List String
  | fontWeight => Nat
  | slant => Slant
  | decorations => Decorations
  | anchor => Anchor
  | visible => Bool

/-- The value of a property in a style. -/
def of (s : Style) : (p : Property) → p.Value
  | fill => s.fill
  | fillOpacity => s.fillOpacity
  | fillRule => s.fillRule
  | stroke => s.stroke
  | strokeOpacity => s.strokeOpacity
  | strokeWidth => s.strokeWidth
  | lineCap => s.lineCap
  | lineJoin => s.lineJoin
  | miterLimit => s.miterLimit
  | dashes => s.dashes
  | dashOffset => s.dashOffset
  | opacity => s.opacity
  | color => s.color
  | fontFamilies => s.fontFamilies
  | fontSize => s.fontSize
  | fontWeight => s.fontWeight
  | slant => s.slant
  | decorations => s.decorations
  | anchor => s.anchor
  | visible => s.visible

/-- The style with the value of one property replaced. -/
def put (s : Style) : (p : Property) → p.Value → Style
  | fill, v => { s with fill := v }
  | fillOpacity, v => { s with fillOpacity := v }
  | fillRule, v => { s with fillRule := v }
  | stroke, v => { s with stroke := v }
  | strokeOpacity, v => { s with strokeOpacity := v }
  | strokeWidth, v => { s with strokeWidth := v }
  | lineCap, v => { s with lineCap := v }
  | lineJoin, v => { s with lineJoin := v }
  | miterLimit, v => { s with miterLimit := v }
  | dashes, v => { s with dashes := v }
  | dashOffset, v => { s with dashOffset := v }
  | opacity, v => { s with opacity := v }
  | color, v => { s with color := v }
  | fontFamilies, v => { s with fontFamilies := v }
  | fontSize, v => { s with fontSize := v }
  | fontWeight, v => { s with fontWeight := v }
  | slant, v => { s with slant := v }
  | decorations, v => { s with decorations := v }
  | anchor, v => { s with anchor := v }
  | visible, v => { s with visible := v }

/-- The names under which a property is declared. -/
def names : Property → List String
  | fill => ["fill"]
  | fillOpacity => ["fill-opacity"]
  | fillRule => ["fill-rule"]
  | stroke => ["stroke"]
  | strokeOpacity => ["stroke-opacity"]
  | strokeWidth => ["stroke-width"]
  | lineCap => ["stroke-linecap"]
  | lineJoin => ["stroke-linejoin"]
  | miterLimit => ["stroke-miterlimit"]
  | dashes => ["stroke-dasharray"]
  | dashOffset => ["stroke-dashoffset"]
  | opacity => ["opacity"]
  | color => ["color"]
  | fontFamilies => ["font-family"]
  | fontSize => ["font-size"]
  | fontWeight => ["font-weight"]
  | slant => ["font-style"]
  | decorations => ["text-decoration", "text-decoration-line"]
  | anchor => ["text-anchor"]
  | visible => ["visibility"]

/-- Whether the values of a property are lengths, which may be multiples of the font size or shares
of the viewport. -/
def isLength : Property → Bool
  | strokeWidth | dashes | dashOffset => true
  | _ => false

/-- What a value other than `inherit` makes of the inherited value of a property. -/
def read (sizes : ReferenceSizes) (value : String) : (p : Property) → p.Value → p.Value
  | fill, v => (PaintSource.ofChars? value.toList).getD v
  | stroke, v => (PaintSource.ofChars? value.toList).getD v
  | fillOpacity, v => (opacity? value.toList).getD v
  | strokeOpacity, v => (opacity? value.toList).getD v
  | opacity, v => ((opacity? value.toList).map (Float32.mul v)).getD v
  | fillRule, _ => if value = "evenodd" then .evenOdd else .nonzero
  | strokeWidth, v => ((sizes.resolve .diagonal value.toList).map (Binary32.max · 0)).getD v
  | lineCap, _ => if value = "round" then .round else if value = "square" then .square else .butt
  | lineJoin, _ => if value = "round" then .round else if value = "bevel" then .bevel else .miter
  | miterLimit, v => ((number? value.toList).map (Binary32.max · 1)).getD v
  | dashes, v => (dashes? sizes value).getD v
  | dashOffset, v => (sizes.resolve .diagonal value.toList).getD v
  | color, v => ((AlphaColor.ofChars? (Text.trim value.toList)).map (·.color)).getD v
  | fontFamilies, v =>
    match familyList value with
    | [] => v
    | families => families
  | fontSize, v => (fontSize? v value).getD v
  | fontWeight, v => (fontWeight? v value).getD v
  | slant, _ =>
    if value = "italic" then .italic else if value = "oblique" then .oblique else .upright
  | decorations, v => (Decorations.ofValue? value.toList).getD v
  | anchor, _ => if value = "middle" then .middle else if value = "end" then .finish else .start
  | visible, _ => value != "hidden" && value != "collapse"

/-- What a declaration makes of the inherited value of a property. -/
def settle (sizes : ReferenceSizes) (p : Property) (v : p.Value) (value : String) : p.Value :=
  if inherits value then v else p.read sizes value v

/-- The property that the declaration of a name settles, once the font size has been. -/
def ofName? : String → Option Property
  | "fill" => some fill
  | "stroke" => some stroke
  | "fill-opacity" => some fillOpacity
  | "stroke-opacity" => some strokeOpacity
  | "opacity" => some opacity
  | "fill-rule" => some fillRule
  | "stroke-width" => some strokeWidth
  | "stroke-linecap" => some lineCap
  | "stroke-linejoin" => some lineJoin
  | "stroke-miterlimit" => some miterLimit
  | "stroke-dasharray" => some dashes
  | "stroke-dashoffset" => some dashOffset
  | "color" => some color
  | "font-family" => some fontFamilies
  | "font-weight" => some fontWeight
  | "font-style" => some slant
  | "text-decoration" | "text-decoration-line" => some decorations
  | "text-anchor" => some anchor
  | "visibility" => some visible
  | _ => none

variable {p q : Property} {s t : Style}

/-- A property has the value that is put there. -/
lemma of_put_self (v : p.Value) : of (put s p v) p = v := by
  cases p <;> rfl

/-- Other properties keep their values. -/
lemma of_put_of_ne (h : q ≠ p) (v : p.Value) : of (put s p v) q = of s q := by
  cases p <;> cases q <;> first | rfl | exact absurd rfl h

/-- Nothing changes where a property keeps its value. -/
lemma put_of : put s p (of s p) = s := by
  cases p <;> rfl

/-- A style is made of its properties. -/
lemma ext_of (h : ∀ p, of s p = of t p) : s = t := by
  cases s
  cases t
  rw [Style.mk.injEq]
  exact ⟨h fill, h fillOpacity, h fillRule, h stroke, h strokeOpacity, h strokeWidth, h lineCap,
    h lineJoin, h miterLimit, h dashes, h dashOffset, h opacity, h color, h fontFamilies,
    h fontSize, h fontWeight, h slant, h decorations, h anchor, h visible⟩

/-- The names that settle a property are its names; the font size has been settled before. -/
lemma ofName?_eq_some_iff {name : String} :
    ofName? name = some p ↔ name ∈ p.names ∧ p ≠ fontSize := by
  constructor
  · intro h
    unfold ofName? at h
    split at h <;> cases h <;> exact ⟨by decide, by decide⟩
  · rintro ⟨h, hne⟩
    cases p <;> simp only [names, List.mem_cons, List.not_mem_nil, or_false] at h
    case fontSize => exact absurd rfl hne
    case decorations => rcases h with rfl | rfl <;> rfl
    all_goals subst h; rfl

end Property

open Property (of put)

/-! ## One declaration -/

/-- A declaration settles the property of its name. -/
lemma declare_eq_put (s : Style) (sizes : ReferenceSizes) (name value : String) :
    s.declare sizes name value =
      match Property.ofName? name with
      | some p => put s p (p.settle sizes (of s p) value)
      | none => s := by
  unfold declare
  dsimp only
  by_cases hinherit : Text.sameIgnoringCase value.toList "inherit".toList = true
  · rw [if_pos hinherit]
    cases Property.ofName? name with
    | none => rfl
    | some p => simp only [Property.settle, inherits, hinherit, if_true, Property.put_of]
  · rw [if_neg hinherit]
    simp only [Property.settle, inherits, hinherit, Bool.false_eq_true, if_false]
    generalize hname : Property.ofName? name = p?
    -- one case for each property, in the order in which they are told apart
    split
    case h_5 =>
      subst hname
      change _ = put s .opacity (((opacity? value.toList).map (Float32.mul s.opacity)).getD _)
      cases opacity? value.toList <;> rfl
    case h_7 =>
      subst hname
      change _ = put s .strokeWidth
        (Option.getD (Option.map _ (sizes.resolve .diagonal value.toList)) _)
      cases sizes.resolve .diagonal value.toList <;> rfl
    case h_10 =>
      subst hname
      change _ = put s .miterLimit (Option.getD (Option.map _ (number? value.toList)) _)
      cases number? value.toList <;> rfl
    case h_14 =>
      subst hname
      change _ = put s .fontFamilies (Property.read sizes value .fontFamilies s.fontFamilies)
      unfold Property.read
      cases familyList value <;> rfl
    case h_21 =>
      have hnone : Property.ofName? name = none := by
        unfold Property.ofName?
        split <;> first | rfl | contradiction
      rw [← hname, hnone]
    all_goals subst hname; rfl

section

variable {s t : Style} {sizes : ReferenceSizes} {p : Property} {name value : String}

/-- A declaration of a property settles it, and a declaration of another one leaves it alone. -/
lemma of_declare (hsize : p ≠ .fontSize) :
    of (s.declare sizes name value) p =
      if name ∈ p.names then p.settle sizes (of s p) value else of s p := by
  rw [declare_eq_put]
  by_cases hname : name ∈ p.names
  · rw [if_pos hname, Property.ofName?_eq_some_iff.mpr ⟨hname, hsize⟩]
    exact Property.of_put_self _
  · rw [if_neg hname]
    cases hq : Property.ofName? name with
    | none => rfl
    | some q =>
      have hne : p ≠ q := by
        rintro rfl
        exact hname (Property.ofName?_eq_some_iff.mp hq).1
      exact Property.of_put_of_ne hne _

/-- No declaration changes the font size that has been settled. -/
lemma fontSize_declare : (s.declare sizes name value).fontSize = s.fontSize := by
  rw [declare_eq_put]
  cases hq : Property.ofName? name with
  | none => rfl
  | some q =>
    have hne := (Property.ofName?_eq_some_iff.mp hq).2
    exact Property.of_put_of_ne hne.symm _

end

/-! ## The word `inherit` -/

/-- The letter `i` in lower case comes from itself or from its capital. -/
lemma eq_of_toLower_eq_i {c : Char} (h : c.toLower = 'i') : c = 'i' ∨ c = 'I' := by
  unfold Char.toLower at h
  split_ifs at h with hupper
  · right
    have hval : c.val + ('a'.val - 'A'.val) = 'i'.val := congrArg Char.val h
    apply Char.ext
    calc c.val = c.val + ('a'.val - 'A'.val) - ('a'.val - 'A'.val) := by rw [UInt32.add_sub_cancel]
      _ = 'I'.val := by rw [hval]; decide
  · exact Or.inl h

/-- A length is written with a number in front. -/
lemma isNumeral_of_resolve {sizes : ReferenceSizes} {axis : Axis} {c : Char}
    {cs : List Char} {x : Float32} (hc : Text.isBlank c = false)
    (h : sizes.resolve axis (c :: cs) = some x) : Decimal.IsNumeral c := by
  -- the number is in front of a unit, which may be empty
  have hnumber : ∀ {front unit : List Char} {y : Float32}, Text.trim (c :: cs) = front ++ unit →
      finiteNumber? (Text.trim front) = some y → Decimal.IsNumeral c := by
    intro front unit y hfront hy
    obtain ⟨hne, hnumeral, -⟩ := finiteNumber?_spec hy
    rw [Text.trim_cons hc] at hfront
    cases front with
    | nil => exact absurd rfl hne
    | cons d front =>
      obtain ⟨rfl, -⟩ := List.cons.inj hfront
      exact hnumeral c (by rw [Text.trim_cons hc]; exact List.mem_cons_self)
  unfold ReferenceSizes.resolve at h
  dsimp only at h
  split at h
  · rename_i front hfront
    obtain ⟨y, hy, -⟩ := Option.map_eq_some_iff.mp h
    exact hnumber (Text.eq_append_of_before? hfront) hy
  · obtain ⟨y, hy, -⟩ := Option.map_eq_some_iff.mp h
    obtain ⟨unit, hunit⟩ : ∃ unit, Text.trim (c :: cs) =
        (sizes.splitUnit (Text.trim (c :: cs))).1 ++ unit := by
      unfold ReferenceSizes.splitUnit
      dsimp only
      cases hfind : sizes.units.findSome? fun u =>
          (Text.before? u.1.toList (Text.trim (c :: cs))).map fun n => (n, u.2) with
      | none => exact ⟨[], (List.append_nil _).symm⟩
      | some found =>
        obtain ⟨u, -, hu⟩ := List.exists_of_findSome?_eq_some hfind
        obtain ⟨front, hfront, rfl⟩ := Option.map_eq_some_iff.mp hu
        exact ⟨u.1.toList, Text.eq_append_of_before? hfront⟩
    exact hnumber hunit hy

/-- The word `inherit` is no font size. -/
lemma fontSize?_of_inherits {value : String} (h : inherits value = true) (parent : Float32) :
    fontSize? parent value = none := by
  obtain ⟨c, cs, hcs, hc⟩ : ∃ c cs, value.toList = c :: cs ∧ c.toLower = 'i' := by
    have hlower : value.toList.map Char.toLower = "inherit".toList.map Char.toLower :=
      beq_iff_eq.mp h
    cases hvalue : value.toList with
    | nil => rw [hvalue] at hlower; cases hlower
    | cons c cs =>
      rw [hvalue] at hlower
      exact ⟨c, cs, rfl, (List.cons.inj hlower).1⟩
  have hblank : Text.isBlank c = false := by
    rcases eq_of_toLower_eq_i hc with rfl | rfl <;> rfl
  have hnumeral : ¬ Decimal.IsNumeral c := by
    rcases eq_of_toLower_eq_i hc with rfl | rfl <;> rintro (h | h) <;> revert h <;> decide
  have hname : namedFontSize? parent (String.ofList (Text.trim value.toList)) = none := by
    have hhead : ∀ word : String, String.ofList (Text.trim value.toList) = word →
        word.toList.head? = some c := by
      rintro _ rfl
      rw [hcs, Text.trim_cons hblank, String.toList_ofList, List.head?_cons]
    unfold namedFontSize?
    split
    case h_10 => rfl
    all_goals
      rename_i hword
      obtain rfl := Option.some.inj (hhead _ hword)
      exact absurd hc (by decide)
  have hlength : ∀ sizes : ReferenceSizes,
      sizes.resolve .horizontal (Text.trim value.toList) = none := by
    intro sizes
    rw [hcs, Text.trim_cons hblank]
    by_contra hsome
    obtain ⟨x, hx⟩ := Option.ne_none_iff_exists'.mp hsome
    exact hnumeral (isNumeral_of_resolve hblank hx)
  unfold fontSize?
  simp only [hname, hlength, Option.filter_none]

end Style

/-! ## The declaration of a property -/

namespace Declarations

open Style (Property)

variable {d d' : Declarations} {p : Property} {name value : String}

/-- The value that is declared for a property. -/
def valueOf? (d : Declarations) (p : Property) : Option String :=
  (d.entries.find? fun e => e.1 ∈ p.names).map (·.2)

/-- Text decorations are declared under one of their two names only. -/
def OneDecoration (d : Declarations) : Prop :=
  d.get? "text-decoration" = none ∨ d.get? "text-decoration-line" = none

/-- A property is declared by one declaration at most. -/
def DeclaresOnce (d : Declarations) (p : Property) : Prop :=
  d.entries.Pairwise fun e f => e.1 ∈ p.names → f.1 ∉ p.names

/-- A property of a single name has the value of that name. -/
lemma valueOf?_eq_get? (h : p.names = [name]) : d.valueOf? p = d.get? name := by
  unfold valueOf? get? Keyed.get?
  simp [h]
  rfl

/-- An entry has the value of its name. -/
lemma Distinct.get?_eq_some_iff (h : d.Distinct) :
    d.get? name = some value ↔ (name, value) ∈ d.entries :=
  ⟨Keyed.mem_of_get?, Keyed.get?_of_mem h⟩

/-- Declarations of distinct names declare a property once, text decorations apart. -/
lemma Distinct.declaresOnce (h : d.Distinct) (hone : p = .decorations → d.OneDecoration) :
    d.DeclaresOnce p := by
  have hnames : d.entries.Pairwise fun e f => e.1 ≠ f.1 := List.pairwise_map.mp h
  refine hnames.imp_of_mem ?_
  rintro ⟨j, v⟩ ⟨k, w⟩ hj hk hne hjp hkp
  by_cases hp : p = .decorations
  · rw [hp, Property.names, List.mem_pair] at hjp hkp
    have hdeclared := hone hp
    unfold OneDecoration at hdeclared
    have hv := h.get?_eq_some_iff.mpr hj
    have hw := h.get?_eq_some_iff.mpr hk
    rcases hjp with rfl | rfl <;> rcases hkp with rfl | rfl <;> simp_all
  · cases p <;> simp only [Property.names, List.mem_singleton] at hjp hkp
    case decorations => exact hp rfl
    all_goals exact hne (hjp.trans hkp.symm)

/-- The declaration of a property is that of one of its names. -/
lemma DeclaresOnce.valueOf?_eq_some_iff (h : d.DeclaresOnce p) (hdistinct : d.Distinct) :
    d.valueOf? p = some value ↔ ∃ name ∈ p.names, d.get? name = some value := by
  simp only [hdistinct.get?_eq_some_iff]
  unfold valueOf?
  constructor
  · intro hvalue
    obtain ⟨e, hfind, rfl⟩ := Option.map_eq_some_iff.mp hvalue
    exact ⟨e.1, by simpa using List.find?_some hfind, List.mem_of_find?_eq_some hfind⟩
  · rintro ⟨name, hname, hmem⟩
    cases hfind : d.entries.find? fun e => e.1 ∈ p.names with
    | none => exact absurd hname (by simpa using List.find?_eq_none.mp hfind _ hmem)
    | some e =>
      have he : e.1 ∈ p.names := by simpa using List.find?_some hfind
      by_cases heq : e = (name, value)
      · rw [heq]; rfl
      · have hsymm : Std.Symm fun e f : String × String => e.1 ∈ p.names → f.1 ∉ p.names :=
          ⟨fun _ _ hef hf he => hef he hf⟩
        exact absurd hname (h.forall (List.mem_of_find?_eq_some hfind) hmem heq he)

/-- Where two lists of declarations give the names of a property the same values, they declare the
same for the property. -/
lemma valueOf?_congr (h : d.Distinct) (h' : d'.Distinct) (honce : d.DeclaresOnce p)
    (honce' : d'.DeclaresOnce p) (hsame : ∀ name ∈ p.names, d'.get? name = d.get? name) :
    d'.valueOf? p = d.valueOf? p := by
  refine Option.ext fun value => ?_
  rw [honce.valueOf?_eq_some_iff h, honce'.valueOf?_eq_some_iff h']
  refine exists_congr fun name => and_congr_right fun hname => ?_
  rw [hsame name hname]

end Declarations

namespace Style

variable {s : Style} {sizes : ReferenceSizes} {p : Property}

open Property (of put)

/-- A property is what its only declaration settles. -/
lemma of_declareAll (hsize : p ≠ .fontSize) {d : Declarations} (h : d.DeclaresOnce p) :
    of (d.entries.foldl (fun s e => s.declare sizes e.1 e.2) s) p =
      ((d.valueOf? p).map (p.settle sizes (of s p))).getD (of s p) := by
  obtain ⟨entries⟩ := d
  unfold Declarations.DeclaresOnce Declarations.valueOf? at *
  dsimp only at *
  induction entries generalizing s with
  | nil => rfl
  | cons e entries ih =>
    obtain ⟨honce, hentries⟩ := List.pairwise_cons.mp h
    rw [List.foldl_cons, ih hentries, of_declare hsize]
    by_cases he : e.1 ∈ p.names
    · have hnone : (entries.find? fun e => e.1 ∈ p.names) = none :=
        List.find?_eq_none.mpr fun f hf => by simpa using honce f hf he
      rw [if_pos he, hnone, List.find?_cons_of_pos (by simpa using he)]
      rfl
    · rw [if_neg he, List.find?_cons_of_neg (by simpa using he)]

/-- The font size is settled before the declarations and stays. -/
lemma fontSize_derive (s : Style) (d : Declarations) (sizes : ReferenceSizes) :
    (s.derive d sizes).fontSize = (s.withFontSize d).fontSize :=
  List.foldlRecOn (motive := fun t : Style => t.fontSize = (s.withFontSize d).fontSize) d.entries _
    rfl fun _ ht _ _ => fontSize_declare.trans ht

/-- Only lengths depend on the reference sizes. -/
lemma Property.settle_congr {sizes sizes' : ReferenceSizes}
    (h : p.isLength = true → sizes' = sizes) : p.settle sizes' = p.settle sizes := by
  cases hlength : p.isLength with
  | true => rw [h hlength]
  | false => cases p <;> first | rfl | cases hlength

/-- The inherited value stays where the declaration says so. -/
lemma Property.settle_of_inherits {value : String} (h : inherits value = true) (v : p.Value) :
    p.settle sizes v value = v := by
  unfold settle
  rw [if_pos h]

/-- The font size is settled by its own declaration. -/
lemma of_withFontSize (s : Style) (d : Declarations) :
    of (s.withFontSize d) .fontSize =
      ((d.valueOf? .fontSize).map (Property.settle sizes .fontSize (of s .fontSize))).getD
        (of s .fontSize) := by
  have hget : d.valueOf? .fontSize = d.get? "font-size" := Declarations.valueOf?_eq_get? rfl
  unfold withFontSize
  rw [hget]
  cases d.get? "font-size" with
  | none => rfl
  | some value =>
    rw [Option.bind_some, Option.map_some, Option.getD_some]
    unfold Property.settle
    split_ifs with hinherits
    · rw [fontSize?_of_inherits hinherits]
    · change _ = (fontSize? s.fontSize value).getD s.fontSize
      cases fontSize? s.fontSize value <;> rfl

/-- A property of an element is what its declaration settles, lengths being taken of the element's
own font size. -/
theorem of_derive {d : Declarations} (h : d.DeclaresOnce p) :
    of (s.derive d sizes) p =
      ((d.valueOf? p).map (p.settle { sizes with fontSize := (s.derive d sizes).fontSize }
        (of s p))).getD (of s p) := by
  by_cases hsize : p = .fontSize
  · subst hsize
    exact (fontSize_derive s d sizes).trans (of_withFontSize s d)
  · have hsized : of (s.withFontSize d) p = of s p := by
      unfold withFontSize
      split
      · exact Property.of_put_of_ne hsize _
      · rfl
    rw [fontSize_derive, ← hsized]
    exact of_declareAll hsize h

/-! ## Order and independence -/

/-- Two elements have the same size of their own and of the viewport. -/
structure SameSizes (s s' : Style) (sizes sizes' : ReferenceSizes) : Prop where
  width : sizes'.viewportWidth = sizes.viewportWidth
  height : sizes'.viewportHeight = sizes.viewportHeight
  fontSize : s'.fontSize = s.fontSize

/-- A property depends on the declaration of it and on the property of the parent, and on the sizes
of the element if it is a length. -/
lemma of_derive_congr {s' : Style} {d d' : Declarations} {sizes' : ReferenceSizes}
    (honce : d.DeclaresOnce p) (honce' : d'.DeclaresOnce p) (hvalue : d'.valueOf? p = d.valueOf? p)
    (hs : of s' p = of s p)
    (hsizes : p.isLength = true → SameSizes (s.derive d sizes) (s'.derive d' sizes') sizes sizes') :
    of (s'.derive d' sizes') p = of (s.derive d sizes) p := by
  have hsettle : p.settle { sizes' with fontSize := (s'.derive d' sizes').fontSize } =
      p.settle { sizes with fontSize := (s.derive d sizes).fontSize } := by
    refine Property.settle_congr fun hlength => ?_
    rw [(hsizes hlength).width, (hsizes hlength).height, (hsizes hlength).fontSize]
  rw [of_derive honce', of_derive honce, hvalue, hs, hsettle]

/-- Declarations that give the names of a property the same values settle the same, and so do those
that also give the font size the same value, if the property is a length. -/
lemma of_derive_of_get? {d d' : Declarations} (h : d.Distinct) (h' : d'.Distinct)
    (honce : d.DeclaresOnce p) (honce' : d'.DeclaresOnce p)
    (hsame : ∀ name ∈ p.names, d'.get? name = d.get? name)
    (hsize : p.isLength = true → d'.get? "font-size" = d.get? "font-size") :
    of (s.derive d' sizes) p = of (s.derive d sizes) p := by
  refine of_derive_congr honce honce' (Declarations.valueOf?_congr h h' honce honce' hsame) rfl
    fun hlength => ⟨rfl, rfl, ?_⟩
  rw [fontSize_derive, fontSize_derive, withFontSize, withFontSize, hsize hlength]

/-- Declarations of distinct names can be made in any order.  Every property that is not declared,
or declared to be inherited, is that of the parent.  What is declared of a property depends on that
declaration and on the property of the parent alone, and for lengths on the viewport and on the
font size of the element itself.  So a further declaration changes its own property only, and with
it the lengths if it is one of the font size. -/
theorem derive_propertywise {s : Style} {d : Declarations} {sizes : ReferenceSizes}
    (hdistinct : d.Distinct) (hone : d.OneDecoration) :
    (∀ d' : Declarations, d'.entries.Perm d.entries → s.derive d' sizes = s.derive d sizes) ∧
    (∀ p : Property,
      (∀ name ∈ p.names, ∀ value, d.get? name = some value → inherits value = true) →
      of (s.derive d sizes) p = of s p) ∧
    (∀ (p : Property) (name value : String), name ∈ p.names → d.get? name = some value →
      ∀ (s' : Style) (d' : Declarations) (sizes' : ReferenceSizes), d'.Distinct →
        d'.OneDecoration → d'.get? name = some value → of s' p = of s p →
        (p.isLength = true →
          SameSizes (s.derive d sizes) (s'.derive d' sizes') sizes sizes') →
        of (s'.derive d' sizes') p = of (s.derive d sizes) p) ∧
    ∀ (p : Property) (name value : String), name ∉ p.names →
      (p.isLength = true → name ≠ "font-size") →
      of (s.derive (d.set name value) sizes) p = of (s.derive d sizes) p := by
  have honce (p : Property) : d.DeclaresOnce p := hdistinct.declaresOnce fun _ => hone
  refine ⟨fun d' hperm => ?_, fun p hinherits => ?_, ?_, fun p name value hname hsize => ?_⟩
  · have hdistinct' : d'.Distinct := (hperm.map Prod.fst).nodup_iff.mpr hdistinct
    have hget (name : String) : d'.get? name = d.get? name := by
      refine Option.ext fun value => ?_
      rw [hdistinct'.get?_eq_some_iff, hdistinct.get?_eq_some_iff, hperm.mem_iff]
    have hone' : d'.OneDecoration := by
      unfold Declarations.OneDecoration
      rwa [hget, hget]
    exact Property.ext_of fun p => of_derive_of_get? hdistinct hdistinct' (honce p)
      (hdistinct'.declaresOnce fun _ => hone') (fun name _ => hget name) fun _ => hget _
  · rw [of_derive (honce p)]
    cases hvalue : d.valueOf? p with
    | none => rfl
    | some value =>
      obtain ⟨name, hname, hget⟩ := ((honce p).valueOf?_eq_some_iff hdistinct).mp hvalue
      exact Property.settle_of_inherits (hinherits name hname value hget) _
  · intro p name value hname hget s' d' sizes' hdistinct' hone' hget' hs hsizes
    have honce' : d'.DeclaresOnce p := hdistinct'.declaresOnce fun _ => hone'
    have hvalue := ((honce p).valueOf?_eq_some_iff hdistinct).mpr ⟨name, hname, hget⟩
    have hvalue' := (honce'.valueOf?_eq_some_iff hdistinct').mpr ⟨name, hname, hget'⟩
    exact of_derive_congr (honce p) honce' (hvalue'.trans hvalue.symm) hs hsizes
  · have hget {k : String} (hk : name ≠ k) : (d.set name value).get? k = d.get? k :=
      (Keyed.get?_put _ _ _ _).trans (if_neg hk)
    have hone' : p = .decorations → (d.set name value).OneDecoration := by
      rintro rfl
      unfold Declarations.OneDecoration
      rwa [hget fun h => hname (by simp [h, Property.names]),
        hget fun h => hname (by simp [h, Property.names])]
    refine of_derive_of_get? hdistinct (hdistinct.set name value) (honce p)
      ((hdistinct.set name value).declaresOnce hone') (fun k hk => hget ?_)
      fun hlength => hget (hsize hlength)
    rintro rfl
    exact hname hk

/-- A stroke of two font sizes, a font size, and a fill that is left as it is. -/
def emStroke : Declarations := ⟨[("stroke-width", "2em"), ("font-size", "20"), ("fill", "Inherit")]⟩

/-- The stroke is as wide in any order, below a parent of another opacity, and beside an opacity of
its own; the fill is that of the parent. -/
theorem derive_propertywise_emStroke :
    (emStroke.Distinct ∧ emStroke.OneDecoration) ∧
      initial.derive ⟨emStroke.entries.reverse⟩ .initial = initial.derive emStroke .initial ∧
      (initial.derive emStroke .initial).fill = initial.fill ∧
      (initial.derive emStroke .initial).strokeWidth = 40 ∧
      ({ initial with opacity := 0 }.derive emStroke .initial).strokeWidth = 40 ∧
      (initial.derive (emStroke.set "opacity" "50%") .initial).strokeWidth = 40 := by
  have hdistinct : emStroke.Distinct := by
    unfold Declarations.Distinct
    decide
  have hone : emStroke.OneDecoration := Or.inl (by decide)
  have hwidth : (initial.derive emStroke .initial).strokeWidth = 40 := by decide +kernel
  obtain ⟨hperm, hinherits, hsame, hset⟩ :=
    @derive_propertywise initial emStroke .initial hdistinct hone
  refine ⟨⟨hdistinct, hone⟩, hperm _ (List.reverse_perm _), hinherits .fill ?_, hwidth, ?_, ?_⟩
  · intro name hname value hvalue
    obtain rfl := List.mem_singleton.mp hname
    obtain rfl : "Inherit" = value := Option.some.inj hvalue
    decide
  · refine (hsame .strokeWidth "stroke-width" "2em" (by decide) (by decide)
      { initial with opacity := 0 } emStroke .initial hdistinct hone (by decide) rfl
      fun _ => ⟨rfl, rfl, ?_⟩).trans hwidth
    rw [fontSize_derive, fontSize_derive]
    rfl
  · exact (hset .strokeWidth "opacity" "50%" (by decide) fun _ => by decide).trans hwidth

end Style

end SvgDisplayList
