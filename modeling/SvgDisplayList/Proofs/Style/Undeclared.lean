import SvgDisplayList.Proofs.Drawing.Content
import SvgDisplayList.Proofs.Keyed
import SvgDisplayList.Proofs.Text.Pieces

/-!
# Elements without the declarations of a property

An element declares a property by the presentation attribute of that name and in its `style`
attribute.  `Xml.Tag.undeclare` takes both away and leaves the rest of the element as it is.  What
is left are the declarations of the element but for those of the property
(`Declarations.ofTag_undeclare`), and its content (`Xml.Tag.sameContent_undeclare`).
-/

namespace SvgDisplayList

/-! ## Declarations of other properties -/

namespace Declarations

variable (property : String) (d : Declarations)

/-- The declarations but for those of a property. -/
def without : Declarations := ⟨Keyed.without property d.entries⟩

/-- A declaration that is taken away again leaves nothing behind. -/
lemma without_set_self (value : String) : (d.set property value).without property =
    d.without property := by
  unfold without set
  rw [Keyed.without_put, if_pos rfl]

/-- Another property is declared before or after. -/
lemma without_set {name : String} (h : name ≠ property) (value : String) :
    (d.set name value).without property = (d.without property).set name value := by
  unfold without set
  rw [Keyed.without_put, if_neg h]

/-- The values of other properties stay. -/
lemma get?_without {name : String} (h : name ≠ property) :
    (d.without property).get? name = d.get? name :=
  Keyed.get?_without h d.entries

/-! ## The declarations of an element, one by one -/

/-- Makes the declaration of a presentation attribute, if the element has it. -/
def addAttribute (tag : Xml.Tag) (d : Declarations) (name : String) : Declarations :=
  match tag.attribute? name with
  | some value => d.set name value
  | none => d

/-- An element makes the declarations of its presentation attributes, and behind them those of its
style. -/
lemma ofTag_eq (tag : Xml.Tag) : ofTag tag =
    ((tag.attribute? "style").map
      (presentationAttributes.foldl (addAttribute tag) empty).addStyle).getD
        (presentationAttributes.foldl (addAttribute tag) empty) := by
  unfold ofTag
  cases tag.attribute? "style" <;> rfl

/-- The names of the declarations are distinct. -/
def Distinct (d : Declarations) : Prop := (Keyed.names d.entries).Nodup

variable {d} in
/-- Names stay distinct. -/
lemma Distinct.set (h : d.Distinct) (name value : String) : (d.set name value).Distinct :=
  Keyed.nodup_names_put h

/-- The names of the declarations of an element are distinct. -/
lemma distinct_ofTag (tag : Xml.Tag) : (ofTag tag).Distinct := by
  have hattribute : ∀ d, Distinct d → ∀ name, (addAttribute tag d name).Distinct := by
    intro d h name
    unfold addAttribute
    cases tag.attribute? name with
    | none => exact h
    | some value => exact h.set name value
  have hattributes : (presentationAttributes.foldl (addAttribute tag) empty).Distinct :=
    List.foldlRecOn (motive := Distinct) _ _ List.nodup_nil fun d h name _ => hattribute d h name
  rw [ofTag_eq]
  cases tag.attribute? "style" with
  | none => exact hattributes
  | some style =>
    exact List.foldlRecOn (motive := Distinct) (ofStyle style.toList) _ hattributes
      fun _ h x _ => h.set x.1 x.2

/-! ## Style texts -/

/-- The name that a piece of a style text declares. -/
def declared? (piece : List Char) : Option String := (ofPiece? piece).map (·.1)

/-- A style text without the pieces that declare a property. -/
def strike (style : String) : String :=
  String.ofList ([';'].intercalate
    ((Text.pieces (· == ';') style.toList).filter fun piece => declared? piece != some property))

/-- A struck style text makes the other declarations. -/
lemma ofStyle_strike (style : String) : ofStyle (strike property style).toList =
    (ofStyle style.toList).filter fun x => x.1 != property := by
  have hfilter : ∀ ws : List (List Char),
      (ws.filter fun piece => declared? piece != some property).filterMap ofPiece? =
        (ws.filterMap ofPiece?).filter fun x => x.1 != property := by
    intro ws
    rw [List.filterMap_filter, List.filter_filterMap]
    refine List.filterMap_congr fun piece _ => ?_
    unfold declared?
    cases ofPiece? piece with
    | none => simp
    | some x => by_cases hx : x.1 = property <;> simp [hx, Option.filter]
  unfold ofStyle strike
  rw [String.toList_ofList, ← hfilter]
  by_cases hnone : (Text.pieces (· == ';') style.toList).filter
      (fun piece => declared? piece != some property) = []
  · -- an empty text has one piece, which declares nothing
    rw [hnone]
    rfl
  · rw [Text.pieces_intercalate rfl hnone]
    intro w hw
    exact Text.not_of_mem_pieces w (List.mem_of_mem_filter hw)

/-- A struck style text makes its declarations, or they are taken away afterwards. -/
lemma addStyle_strike (style : String) :
    (d.without property).addStyle (strike property style) =
      (d.addStyle style).without property := by
  unfold addStyle
  rw [ofStyle_strike]
  induction ofStyle style.toList generalizing d with
  | nil => rfl
  | cons x xs ih =>
    rw [List.foldl_cons, ← ih]
    by_cases hx : x.1 = property
    · rw [List.filter_cons_of_neg (by simpa using hx), ← hx, without_set_self]
    · rw [List.filter_cons_of_pos (by simpa using hx), List.foldl_cons, without_set property d hx]

end Declarations

/-! ## Tags -/

namespace Xml

open Declarations (strike)

variable (property : String)

/-- An attribute without what it declares of a property: nothing is left of the presentation
attribute of the property, and the style is struck. -/
def Attribute.undeclare? (a : Attribute) : Option Attribute :=
  if a.space? = none ∧ a.name = property then none
  else if a.space? = none ∧ a.name = "style" then some { a with value := strike property a.value }
  else some a

namespace Tag

/-- A tag without its declarations of a property. -/
def undeclare (t : Tag) : Tag :=
  { t with attributes := t.attributes.filterMap (Attribute.undeclare? property) }

variable {property} {t : Tag} {space : Option String} {name : String}

/-- What is left of an attribute has its name. -/
lemma name_eq_of_undeclare? {a b : Attribute} (h : a.undeclare? property = some b) :
    b.space? = a.space? ∧ b.name = a.name := by
  unfold Attribute.undeclare? at h
  split_ifs at h
  · obtain rfl := Option.some.inj h
    exact ⟨rfl, rfl⟩
  · obtain rfl := Option.some.inj h
    exact ⟨rfl, rfl⟩

/-- The attribute of a name is what is left of the attribute of that name, if all attributes of the
name leave something. -/
lemma attributeIn?_undeclare {f : Attribute → Attribute}
    (h : ∀ a : Attribute, a.space? = space → a.name = name → a.undeclare? property = some (f a)) :
    (t.undeclare property).attributeIn? space name =
      (t.attributes.find? fun a => a.space? == space && a.name == name).map fun a =>
        (f a).value := by
  have hsame : ∀ a : Attribute, ((a.undeclare? property).any fun a =>
      a.space? == space && a.name == name) = (a.space? == space && a.name == name) := by
    intro a
    cases ha : a.undeclare? property with
    | some b =>
      obtain ⟨hspace, hname⟩ := name_eq_of_undeclare? ha
      rw [Option.any_some, hspace, hname]
    | none =>
      rw [Option.any_none, eq_comm, Bool.and_eq_false_iff, beq_eq_false_iff_ne, beq_eq_false_iff_ne]
      by_contra! hboth
      rw [h a hboth.1 hboth.2] at ha
      cases ha
  unfold attributeIn? undeclare
  rw [List.find?_filterMap]
  simp only [hsame]
  cases hfind : t.attributes.find? fun a => a.space? == space && a.name == name with
  | none => rfl
  | some a =>
    have ha := List.find?_some hfind
    rw [Bool.and_eq_true, beq_iff_eq, beq_iff_eq] at ha
    rw [Option.bind_some, h a ha.1 ha.2]
    rfl

/-- An attribute that declares nothing stays. -/
lemma attributeIn?_undeclare_of_ne (h : space ≠ none ∨ name ≠ property ∧ name ≠ "style") :
    (t.undeclare property).attributeIn? space name = t.attributeIn? space name := by
  refine attributeIn?_undeclare (f := id) ?_
  rintro a rfl rfl
  unfold Attribute.undeclare?
  rw [if_neg fun hboth => h.elim (· hboth.1) (·.1 hboth.2),
    if_neg fun hboth => h.elim (· hboth.1) (·.2 hboth.2)]
  rfl

/-- The presentation attribute of the property is gone. -/
lemma attribute?_undeclare_self : (t.undeclare property).attribute? property = none := by
  unfold attribute? attributeIn? undeclare
  rw [Option.map_eq_none_iff, List.find?_eq_none]
  intro b hb hmatch
  obtain ⟨a, -, ha⟩ := List.mem_filterMap.mp hb
  obtain ⟨hspace, hname⟩ := name_eq_of_undeclare? ha
  rw [hspace, hname, Bool.and_eq_true, beq_iff_eq, beq_iff_eq] at hmatch
  unfold Attribute.undeclare? at ha
  rw [if_pos hmatch] at ha
  cases ha

/-- The style is struck. -/
lemma attribute?_undeclare_style (h : property ≠ "style") :
    (t.undeclare property).attribute? "style" = (t.attribute? "style").map (strike property) := by
  let struck (a : Attribute) : Attribute := { a with value := strike property a.value }
  have hstruck : ∀ a : Attribute, a.space? = none → a.name = "style" →
      a.undeclare? property = some (struck a) := by
    intro a hspace hname
    unfold Attribute.undeclare?
    rw [if_neg fun hboth => h (hboth.2.symm.trans hname), if_pos ⟨hspace, hname⟩]
  unfold attribute?
  rw [attributeIn?_undeclare hstruck]
  unfold attributeIn?
  rw [Option.map_map]
  rfl

/-- What is left of an element has its content. -/
lemma sameContent_undeclare (h : property ∈ stylingAttributes) (t : Tag) :
    SameContent t (t.undeclare property) where
  space?_eq := rfl
  name_eq := rfl
  attributeIn?_eq := by
    intro space name hname
    refine attributeIn?_undeclare_of_ne (hname.imp_right fun hnot => ⟨?_, ?_⟩)
    · exact fun heq => hnot (heq ▸ h)
    · exact fun heq => hnot (heq ▸ by decide)

end Tag

end Xml

/-- What is left of an element declares what the element declares of other properties. -/
theorem Declarations.ofTag_undeclare {property : String} (h : property ≠ "style") (t : Xml.Tag) :
    ofTag (t.undeclare property) = (ofTag t).without property := by
  have hattribute : ∀ (d : Declarations) name, name ≠ "style" →
      addAttribute (t.undeclare property) (d.without property) name =
        (addAttribute t d name).without property := by
    intro d name hname
    unfold addAttribute
    by_cases hproperty : name = property
    · rw [hproperty, Xml.Tag.attribute?_undeclare_self]
      cases t.attribute? property with
      | none => rfl
      | some value => exact (d.without_set_self property value).symm
    · have hattribute : (t.undeclare property).attribute? name = t.attribute? name :=
        Xml.Tag.attributeIn?_undeclare_of_ne (Or.inr ⟨hproperty, hname⟩)
      rw [hattribute]
      cases t.attribute? name with
      | none => rfl
      | some value => exact (d.without_set property hproperty value).symm
  have hattributes : ∀ (names : List String) (d : Declarations), (∀ name ∈ names, name ≠ "style") →
      names.foldl (addAttribute (t.undeclare property)) (d.without property) =
        (names.foldl (addAttribute t) d).without property := by
    intro names
    induction names with
    | nil => exact fun _ _ => rfl
    | cons name names ih =>
      intro d hnames
      obtain ⟨hname, hnames⟩ := List.forall_mem_cons.mp hnames
      rw [List.foldl_cons, hattribute d name hname, ih _ hnames, List.foldl_cons]
  have hfirst := hattributes presentationAttributes empty (by decide)
  change presentationAttributes.foldl _ empty = _ at hfirst
  rw [ofTag_eq, ofTag_eq, Xml.Tag.attribute?_undeclare_style h, hfirst]
  cases t.attribute? "style" with
  | none => rfl
  | some style => exact addStyle_strike property _ style

end SvgDisplayList
