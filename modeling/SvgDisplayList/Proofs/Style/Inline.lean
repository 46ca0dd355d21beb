import SvgDisplayList.Proofs.Style.Property

/-!
# Inline styles and presentation attributes

An element declares a property by presentation attributes and in its `style` attribute.  What the
style says takes the place of the attribute of the same name, or stands behind all attributes.  So
an element whose style declares a property has the value of it that it would have without the
attributes of the property.

Text decorations are the exception, because they have two names.  Of two declarations the later one
decides, and a name keeps the place of its first declaration (`Style.decorations_derive_ofTag`): a
declaration of the style that has taken the place of an attribute stands in front of the attribute
of the other name.  `Xml.Tag.Displaces` says when this makes a difference, and
`Style.of_derive_withoutAttributes` that there is no other exception.
-/

namespace SvgDisplayList

/-! ## Written names -/

namespace Keyed

variable {α : Type} {xs entries : List (String × α)} {name : String} {value : α}

/-- Values under other names can be left out. -/
lemma last?_filter {p : String → Bool} (h : p name = true) :
    last? (xs.filter fun x => p x.1) name = last? xs name := by
  unfold last?
  rw [List.filter_filter]
  congr 3
  funext x
  by_cases hx : x.1 = name
  · simp [hx, h]
  · simp [hx]

/-- The last of the values that are found under names is that of the name. -/
lemma last?_filterMap (names : List String) (value? : String → Option α) :
    last? (names.filterMap fun k => (value? k).map (k, ·)) name =
      if name ∈ names then value? name else none := by
  induction names with
  | nil => rfl
  | cons k names ih =>
    by_cases hk : k = name
    · subst hk
      cases hvalue : value? k with
      | none => rw [List.filterMap_cons_none (by rw [hvalue]; rfl), ih]; simp [hvalue]
      | some v =>
        rw [List.filterMap_cons_some (by rw [hvalue]; rfl), last?_cons, ih]
        by_cases hmem : k ∈ names <;> simp [hmem, hvalue]
    · have hmem : name ∈ k :: names ↔ name ∈ names := by simp [Ne.symm hk]
      simp only [hmem]
      rw [← ih]
      cases hvalue : value? k with
      | none => rw [List.filterMap_cons_none (by rw [hvalue]; rfl)]
      | some v => rw [List.filterMap_cons_some (by rw [hvalue]; rfl), last?_cons]; simp [hk]

/-- What is written under other names can be left out before or after. -/
lemma filter_foldl_put (p : String → Bool) (xs : List (String × α)) (entries : Keyed α) :
    (xs.foldl (fun es x => put x.1 x.2 es) entries).filter (fun x => p x.1) =
      (xs.filter fun x => p x.1).foldl (fun es x => put x.1 x.2 es)
        (entries.filter fun x => p x.1) := by
  have hput : ∀ (k : String) (v : α) (es : Keyed α), (put k v es).filter (fun x => p x.1) =
      if p k then put k v (es.filter fun x => p x.1) else es.filter fun x => p x.1 := by
    intro k v es
    induction es with
    | nil => by_cases hk : p k <;> simp [put, hk]
    | cons e es ih =>
      by_cases he : e.1 = k
      · subst he
        by_cases hk : p e.1 <;> simp [put, hk]
      · by_cases hk : p k <;> by_cases hp : p e.1 <;> simp_all [put]
  induction xs generalizing entries with
  | nil => rfl
  | cons x xs ih =>
    rw [List.foldl_cons, ih, hput, List.filter_cons]
    split_ifs <;> rfl

/-- The entries of two names, of which the second one may be missing. -/
def pair (n m : String) (v : α) (w? : Option α) : Keyed α := (n, v) :: (w?.map (m, ·)).toList

/-- Writing under two names leaves them in their order, each with its last value. -/
lemma foldl_put_pair {n m : String} (hne : n ≠ m) (h : ∀ x ∈ xs, x.1 = n ∨ x.1 = m) (v : α)
    (w? : Option α) :
    xs.foldl (fun es x => put x.1 x.2 es) (pair n m v w?) =
      pair n m ((last? xs n).getD v) ((last? xs m).or w?) := by
  induction xs generalizing v w? with
  | nil => rfl
  | cons x xs ih =>
    obtain ⟨hx, hxs⟩ := List.forall_mem_cons.mp h
    rw [List.foldl_cons, last?_cons, last?_cons]
    rcases hx with hx | hx
    · have hput : put x.1 x.2 (pair n m v w?) = pair n m x.2 w? := by
        rw [hx]
        exact if_pos rfl
      rw [hput, ih hxs, if_pos hx, if_neg (hx ▸ hne), Option.or_none]
      cases last? xs n <;> rfl
    · have hput : put x.1 x.2 (pair n m v w?) = pair n m v (some x.2) := by
        rw [hx]
        cases w? <;> simp [put, pair, hne]
      rw [hput, ih hxs, if_neg (hx ▸ hne.symm), if_pos hx, Option.or_none, Option.or_assoc]
      rfl

end Keyed

/-! ## The declarations of an element -/

namespace Xml.Tag

variable {t : Tag} {names : List String} {name : String}

/-- A tag without the attributes of some names. -/
def withoutAttributes (names : List String) (t : Tag) : Tag :=
  { t with attributes := t.attributes.filter fun a => ¬ (a.space? = none ∧ a.name ∈ names) }

/-- The attributes of the names are gone. -/
lemma attribute?_withoutAttributes_of_mem (h : name ∈ names) :
    (t.withoutAttributes names).attribute? name = none := by
  unfold attribute? attributeIn? withoutAttributes
  rw [Option.map_eq_none_iff, List.find?_eq_none]
  intro a ha hmatch
  have hkept := (List.mem_filter.mp ha).2
  rw [Bool.and_eq_true, beq_iff_eq, beq_iff_eq] at hmatch
  simp [hmatch.1, hmatch.2, h] at hkept

/-- The attributes of other names stay. -/
lemma attribute?_withoutAttributes_of_notMem (h : name ∉ names) :
    (t.withoutAttributes names).attribute? name = t.attribute? name := by
  unfold attribute? attributeIn? withoutAttributes
  rw [List.find?_filter]
  congr 2
  funext a
  by_cases ha : a.name = name
  · subst ha
    cases a.space? <;> simp [h]
  · simp [ha]

/-- The value of a presentation attribute, without blanks at its ends. -/
def presentation? (t : Tag) (name : String) : Option String :=
  (t.attribute? name).map Text.trimString

/-- The presentation attributes of the names are gone. -/
lemma presentation?_withoutAttributes_of_mem (h : name ∈ names) :
    (t.withoutAttributes names).presentation? name = none := by
  unfold presentation?
  rw [attribute?_withoutAttributes_of_mem h, Option.map_none]

/-- The declarations of the style of an element, in order. -/
def styled (t : Tag) : List (String × String) :=
  match t.attribute? "style" with
  | some style => Declarations.ofStyle style.toList
  | none => []

/-- What the style of an element declares of a name. -/
def inline? (t : Tag) (name : String) : Option String := Keyed.last? t.styled name

/-- The style stays without presentation attributes. -/
lemma styled_withoutAttributes (h : "style" ∉ names) :
    (t.withoutAttributes names).styled = t.styled := by
  unfold styled
  rw [attribute?_withoutAttributes_of_notMem h]

/-- The style declares the same without presentation attributes. -/
lemma inline?_withoutAttributes (h : "style" ∉ names) (name : String) :
    (t.withoutAttributes names).inline? name = t.inline? name := by
  unfold inline?
  rw [styled_withoutAttributes h]

end Xml.Tag

namespace Declarations

variable (t : Xml.Tag)

/-- The values that a style text declares are trimmed. -/
lemma trimString_of_mem_ofStyle {style : List Char} {x : String × String} (h : x ∈ ofStyle style) :
    Text.trimString x.2 = x.2 := by
  have htrim : ∀ cs : List Char,
      Text.trimString (String.ofList (Text.trim cs)) = String.ofList (Text.trim cs) := by
    intro cs
    unfold Text.trimString
    rw [String.toList_ofList, Text.trim_trim]
  obtain ⟨piece, -, hpiece⟩ := List.mem_filterMap.mp h
  unfold ofPiece? at hpiece
  split at hpiece
  · cases hpiece
  · dsimp only at hpiece
    split_ifs at hpiece
    obtain rfl := Option.some.inj hpiece
    dsimp only
    split <;> exact htrim _

/-- Declarations with values written one after the other. -/
def record (d : Declarations) (xs : List (String × String)) : Declarations :=
  xs.foldl (fun d x => d.set x.1 x.2) d

/-- Values are trimmed as they are written. -/
lemma entries_record (d : Declarations) (xs : List (String × String)) :
    (d.record xs).entries = (xs.map fun x => (x.1, Text.trimString x.2)).foldl
      (fun es x => Keyed.put x.1 x.2 es) d.entries := by
  unfold record
  induction xs generalizing d with
  | nil => rfl
  | cons x xs ih => exact ih (d.set x.1 x.2)

/-- The presentation attributes of an element, in the order in which they are read. -/
def presented : List (String × String) :=
  presentationAttributes.filterMap fun name => (t.presentation? name).map (name, ·)

/-- An element writes its presentation attributes and then the declarations of its style. -/
lemma entries_ofTag : (ofTag t).entries =
    (presented t ++ t.styled).foldl (fun es x => Keyed.put x.1 x.2 es) [] := by
  have hattributes : ∀ (names : List String) (d : Declarations),
      (names.foldl (addAttribute t) d).entries =
        (names.filterMap fun name => (t.presentation? name).map (name, ·)).foldl
          (fun es x => Keyed.put x.1 x.2 es) d.entries := by
    intro names
    induction names with
    | nil => exact fun _ => rfl
    | cons name names ih =>
      intro d
      rw [List.foldl_cons, ih]
      unfold addAttribute Xml.Tag.presentation?
      cases hvalue : t.attribute? name with
      | none => rw [List.filterMap_cons_none (by rw [hvalue]; rfl)]
      | some value => rw [List.filterMap_cons_some (by rw [hvalue]; rfl)]; rfl
  have hstyle : ∀ style : List Char,
      (ofStyle style).map (fun x => (x.1, Text.trimString x.2)) = ofStyle style := by
    intro style
    refine (List.map_congr_left fun x hx => ?_).trans (List.map_id _)
    exact Prod.ext rfl (trimString_of_mem_ofStyle hx)
  rw [ofTag_eq, List.foldl_append]
  unfold Xml.Tag.styled
  cases t.attribute? "style" with
  | none => exact hattributes _ _
  | some style =>
    refine (entries_record _ (ofStyle style.toList)).trans ?_
    rw [hstyle, hattributes]
    rfl

/-- Under a name stands what the style declares of it, or else the presentation attribute. -/
lemma get?_ofTag (name : String) : (ofTag t).get? name =
    (t.inline? name).or
      (if name ∈ presentationAttributes then t.presentation? name else none) := by
  unfold get? Xml.Tag.inline?
  rw [entries_ofTag, Keyed.get?_foldl_put, Keyed.last?_append, presented, Keyed.last?_filterMap]
  exact Option.or_none

/-- Without the attributes of some names, under these stands what the style declares. -/
lemma get?_ofTag_withoutAttributes_of_mem {names : List String} (h : "style" ∉ names)
    {name : String} (hmem : name ∈ names) :
    (ofTag (t.withoutAttributes names)).get? name = t.inline? name := by
  rw [get?_ofTag, Xml.Tag.inline?_withoutAttributes h,
    Xml.Tag.presentation?_withoutAttributes_of_mem hmem, ite_self, Option.or_none]

/-- Without the attributes of some names, nothing changes under the others. -/
lemma get?_ofTag_withoutAttributes_of_notMem {names : List String} (h : "style" ∉ names)
    {name : String} (hmem : name ∉ names) :
    (ofTag (t.withoutAttributes names)).get? name = (ofTag t).get? name := by
  rw [get?_ofTag, get?_ofTag, Xml.Tag.inline?_withoutAttributes h, Xml.Tag.presentation?,
    Xml.Tag.attribute?_withoutAttributes_of_notMem hmem, Xml.Tag.presentation?]

/-- The name under which text decorations are first declared. -/
def leading? (xs : List (String × String)) : Option String :=
  (xs.find? fun x => x.1 ∈ Style.Property.names .decorations).map (·.1)

/-- Without attributes that declare text decorations, the style is the first to declare them. -/
lemma leading?_withoutAttributes :
    leading? (presented (t.withoutAttributes (Style.Property.names .decorations)) ++
      (t.withoutAttributes (Style.Property.names .decorations)).styled) = leading? t.styled := by
  have hnone : (presented (t.withoutAttributes (Style.Property.names .decorations))).find?
      (fun x => x.1 ∈ Style.Property.names .decorations) = none := by
    refine List.find?_eq_none.mpr fun x hx hmem => ?_
    obtain ⟨name, -, hname⟩ := List.mem_filterMap.mp hx
    obtain ⟨value, hvalue, rfl⟩ := Option.map_eq_some_iff.mp hname
    rw [Xml.Tag.presentation?_withoutAttributes_of_mem (by simpa using hmem)] at hvalue
    cases hvalue
  unfold leading?
  rw [List.find?_append, hnone, Option.none_or, Xml.Tag.styled_withoutAttributes (by decide)]

/-- Where text decorations are declared, one of their names is declared first. -/
lemma exists_leading? {xs : List (String × String)} {name value : String}
    (hname : name ∈ Style.Property.names .decorations)
    (hvalue : Keyed.last? xs name = some value) :
    ∃ n ∈ Style.Property.names .decorations, leading? xs = some n ∧
      ∃ v, Keyed.last? xs n = some v := by
  cases hfind : xs.find? fun x => x.1 ∈ Style.Property.names .decorations with
  | none =>
    have hnot := List.find?_eq_none.mp hfind _ (Keyed.mem_of_last? hvalue)
    exact absurd hname (by simpa using hnot)
  | some x =>
    have hx := List.find?_some hfind
    refine ⟨x.1, by simpa using hx, congrArg (Option.map Prod.fst) hfind, ?_⟩
    refine Option.ne_none_iff_exists'.mp fun hnone => ?_
    exact Keyed.last?_eq_none_iff.mp hnone x (List.mem_of_find?_eq_some hfind) rfl

/-- The declarations of text decorations are those of two names, in the order in which the names are
first declared. -/
lemma exists_pair {n m : String} (hne : n ≠ m)
    (hnames : ∀ k, k ∈ Style.Property.names .decorations ↔ k = n ∨ k = m)
    (hleading : leading? (presented t ++ t.styled) = some n) :
    ∃ v w?, (ofTag t).entries.filter (fun e => e.1 ∈ Style.Property.names .decorations) =
        Keyed.pair n m v w? ∧
      (ofTag t).get? n = some v ∧ (ofTag t).get? m = w? := by
  set xs := presented t ++ t.styled
  obtain ⟨x, rest, hxs, rfl⟩ : ∃ x rest,
      xs.filter (fun x => x.1 ∈ Style.Property.names .decorations) = x :: rest ∧ x.1 = n := by
    obtain ⟨x, hx, hn⟩ := Option.map_eq_some_iff.mp hleading
    rw [← List.head?_filter] at hx
    exact ⟨x, _, List.eq_cons_of_mem_head? hx, hn⟩
  have hrest : ∀ y ∈ rest, y.1 = x.1 ∨ y.1 = m := by
    intro y hy
    have hmem : y ∈ xs.filter (fun x => x.1 ∈ Style.Property.names .decorations) :=
      hxs ▸ List.mem_cons_of_mem _ hy
    exact (hnames y.1).mp (by simpa using (List.mem_filter.mp hmem).2)
  have hget : ∀ k ∈ Style.Property.names .decorations, (ofTag t).get? k =
      (Keyed.last? rest k).or (if x.1 = k then some x.2 else none) := by
    intro k hk
    unfold get?
    rw [entries_ofTag, Keyed.get?_foldl_put, ← Keyed.last?_cons, ← hxs,
      Keyed.last?_filter (p := fun k => k ∈ Style.Property.names .decorations) (by simpa using hk)]
    exact Option.or_none
  refine ⟨(Keyed.last? rest x.1).getD x.2, Keyed.last? rest m, ?_, ?_, ?_⟩
  · rw [entries_ofTag, Keyed.filter_foldl_put (fun k => k ∈ Style.Property.names .decorations),
      hxs, List.foldl_cons]
    refine (Keyed.foldl_put_pair hne hrest x.2 none).trans ?_
    rw [Option.or_none]
  · rw [hget x.1 ((hnames x.1).mpr (Or.inl rfl)), if_pos rfl]
    cases Keyed.last? rest x.1 <;> rfl
  · rw [hget m ((hnames m).mpr (Or.inr rfl)), if_neg hne, Option.or_none]

end Declarations

/-! ## Text decorations -/

/-- The text decorations that a declared value stands for, if it is neither `inherit` nor without
any meaning. -/
def Decorations.declared? (value : String) : Option Decorations :=
  if Style.inherits value then none else ofValue? value.toList

namespace Style

open Property (of)

variable {s : Style} {sizes : ReferenceSizes} {p : Property} {t : Xml.Tag} {n m : String}

/-- A property is what the declarations of its names make of it one after the other. -/
lemma of_foldl_declare (hsize : p ≠ .fontSize) (sizes : ReferenceSizes) (s : Style)
    (es : Keyed String) :
    of (es.foldl (fun s e => s.declare sizes e.1 e.2) s) p =
      (es.filter fun e => e.1 ∈ p.names).foldl (fun v e => p.settle sizes v e.2) (of s p) := by
  induction es generalizing s with
  | nil => rfl
  | cons e es ih =>
    rw [List.foldl_cons, ih, of_declare hsize, List.filter_cons]
    by_cases he : e.1 ∈ p.names <;> simp [he]

/-- A declaration replaces the text decorations if it stands for any. -/
lemma settle_decorations (v : Decorations) (value : String) :
    Property.settle sizes .decorations v value = (Decorations.declared? value).getD v := by
  unfold Decorations.declared?
  by_cases hinherits : inherits value = true
  · rw [if_pos hinherits]
    exact Property.settle_of_inherits (p := .decorations) hinherits v
  · rw [if_neg hinherits]
    exact if_neg hinherits

/-- Of two declarations of text decorations, the second one counts if it stands for any. -/
lemma foldl_settle_pair (d : Decorations) (v : String) (w? : Option String) :
    (Keyed.pair n m v w?).foldl (fun d e => Property.settle sizes .decorations d e.2) d =
      ((w?.bind Decorations.declared?).or (Decorations.declared? v)).getD d := by
  cases w? with
  | none => exact settle_decorations d v
  | some w =>
    refine (settle_decorations _ w).trans ?_
    rw [Option.bind_some]
    cases Decorations.declared? w with
    | none => exact settle_decorations d v
    | some u => rfl

/-- Of the two names of text decorations, the one that is declared first gives way to the other
one. -/
theorem decorations_derive_ofTag (s : Style) (sizes : ReferenceSizes) (hne : n ≠ m)
    (hnames : ∀ k, k ∈ Property.names .decorations ↔ k = n ∨ k = m)
    (hleading : Declarations.leading? (Declarations.presented t ++ t.styled) = some n) :
    (s.derive (.ofTag t) sizes).decorations =
      ((((Declarations.ofTag t).get? m).bind Decorations.declared?).or
        (((Declarations.ofTag t).get? n).bind Decorations.declared?)).getD s.decorations := by
  obtain ⟨v, w?, hentries, hv, hw⟩ := Declarations.exists_pair t hne hnames hleading
  have hsized : of (s.withFontSize (.ofTag t)) .decorations = of s .decorations := by
    unfold withFontSize
    split <;> rfl
  have hderive := of_foldl_declare (p := .decorations) (by decide)
    { sizes with fontSize := (s.withFontSize (.ofTag t)).fontSize } (s.withFontSize (.ofTag t))
    (Declarations.ofTag t).entries
  rw [hentries, hsized] at hderive
  rw [hw, hv, Option.bind_some]
  exact hderive.trans (foldl_settle_pair s.decorations v w?)

end Style

open Declarations in
/-- What the style of an element says of text decorations under the name that is declared first is
displaced by what is declared under the other name, be it by an attribute alone or in the style in
front of it. -/
def Xml.Tag.Displaces (t : Tag) : Prop :=
  ∃ n m u v, (∀ k, k ∈ Style.Property.names .decorations ↔ k = n ∨ k = m) ∧ n ≠ m ∧
    leading? (presented t ++ t.styled) = some n ∧
    (t.inline? n).bind Decorations.declared? = some u ∧
    ((ofTag t).get? m).bind Decorations.declared? = some v ∧ u ≠ v ∧
    (t.inline? m = none ∨ leading? t.styled = some m)

namespace Style

open Property (of)

variable {s : Style} {sizes : ReferenceSizes} {p : Property} {t : Xml.Tag} {name value : String}

/-- Whether the style is displaced can be told from the name that is declared first. -/
lemma displaces_iff {n m : String} (hnames : ∀ k, k ∈ Property.names .decorations ↔ k = n ∨ k = m)
    (hne : n ≠ m)
    (hleading : Declarations.leading? (Declarations.presented t ++ t.styled) = some n) :
    t.Displaces ↔ ∃ u v, (t.inline? n).bind Decorations.declared? = some u ∧
      ((Declarations.ofTag t).get? m).bind Decorations.declared? = some v ∧ u ≠ v ∧
      (t.inline? m = none ∨ Declarations.leading? t.styled = some m) := by
  refine ⟨?_, fun ⟨u, v, h⟩ => ⟨n, m, u, v, hnames, hne, hleading, h⟩⟩
  rintro ⟨n', m', u, v, hnames', hne', hleading', h⟩
  obtain rfl : n = n' := Option.some.inj (hleading.symm.trans hleading')
  obtain rfl : m' = m := ((hnames m').mp ((hnames' m').mpr (Or.inr rfl))).resolve_left hne'.symm
  exact ⟨u, v, h⟩

/-- The text decorations of an element whose style declares them are those that it would have
without attributes of that kind, unless the style is displaced. -/
lemma decorations_derive_withoutAttributes (hname : name ∈ Property.names .decorations)
    (hvalue : t.inline? name = some value) (hdeclared : Decorations.declared? value ≠ none) :
    (s.derive (.ofTag t) sizes).decorations =
        (s.derive (.ofTag (t.withoutAttributes (Property.names .decorations))) sizes).decorations ↔
      ¬ t.Displaces := by
  have hbare : ∀ k ∈ Property.names .decorations,
      (Declarations.ofTag (t.withoutAttributes (Property.names .decorations))).get? k =
        t.inline? k :=
    fun k hk => Declarations.get?_ofTag_withoutAttributes_of_mem t (by decide) hk
  have hget : ∀ {k a : String}, t.inline? k = some a → (Declarations.ofTag t).get? k = some a := by
    intro k a ha
    rw [Declarations.get?_ofTag, ha, Option.some_or]
  obtain ⟨w, hw⟩ := Option.ne_none_iff_exists'.mp hdeclared
  -- the names in the order in which they are declared, with the attributes and without
  have hdeclares : Keyed.last? (Declarations.presented t ++ t.styled) name = some value :=
    Keyed.last?_append.trans ((congrArg (Option.or · _) hvalue).trans Option.some_or)
  obtain ⟨n, hn, hleading, -⟩ := Declarations.exists_leading? hname hdeclares
  obtain ⟨m, hne, hnames⟩ : ∃ m, n ≠ m ∧ ∀ k, k ∈ Property.names .decorations ↔ k = n ∨ k = m := by
    rcases List.mem_pair.mp hn with rfl | rfl
    · exact ⟨"text-decoration-line", by decide, fun k => List.mem_pair⟩
    · exact ⟨"text-decoration", by decide, fun k => List.mem_pair.trans or_comm⟩
  have hm : m ∈ Property.names .decorations := (hnames m).mpr (Or.inr rfl)
  obtain ⟨k, hk, hstyled, a, ha⟩ := Declarations.exists_leading? hname hvalue
  have hbareLeading := (Declarations.leading?_withoutAttributes t).trans hstyled
  change t.inline? k = some a at ha
  rw [displaces_iff hnames hne hleading, decorations_derive_ofTag s sizes hne hnames hleading]
  rcases (hnames k).mp hk with rfl | rfl
  · -- the attributes and the style begin with the same name
    rw [decorations_derive_ofTag s sizes hne hnames hbareLeading, hbare _ hn, hbare _ hm, hget ha,
      ha]
    cases hb : t.inline? m with
    | none =>
      obtain rfl : name = k := by
        refine ((hnames name).mp hname).resolve_right fun h => ?_
        rw [h, hb] at hvalue
        cases hvalue
      obtain rfl : value = a := Option.some.inj (hvalue.symm.trans ha)
      simp only [Option.bind_some, hw]
      cases ((Declarations.ofTag t).get? m).bind Decorations.declared? <;> simp [eq_comm]
    | some b =>
      rw [hget hb, hstyled]
      simp [hne]
  · -- the attributes turn the order of the names round
    rw [decorations_derive_ofTag s sizes hne.symm (fun j => (hnames j).trans or_comm) hbareLeading,
      hbare _ hn, hbare _ hm, hget ha, ha, hstyled]
    cases hb : t.inline? n with
    | none =>
      obtain rfl : name = k := by
        refine ((hnames name).mp hname).resolve_left fun h => ?_
        rw [h, hb] at hvalue
        cases hvalue
      obtain rfl : value = a := Option.some.inj (hvalue.symm.trans ha)
      simp [hw]
    | some b =>
      rw [hget hb]
      simp only [Option.bind_some]
      cases Decorations.declared? a <;> cases Decorations.declared? b <;> simp [eq_comm]

/-- An element whose style declares a property has the value of it that it would have without the
presentation attributes of the property, unless the property is that of text decorations, and what
the style says of them is displaced. -/
theorem of_derive_withoutAttributes (hname : name ∈ p.names) (hvalue : t.inline? name = some value)
    (hdeclared : p = .decorations → Decorations.declared? value ≠ none) :
    of (s.derive (.ofTag t) sizes) p =
        of (s.derive (.ofTag (t.withoutAttributes p.names)) sizes) p ↔
      (p = .decorations → ¬ t.Displaces) := by
  by_cases hp : p = .decorations
  · subst hp
    exact (decorations_derive_withoutAttributes hname hvalue (hdeclared rfl)).trans
      ⟨fun h _ => h, fun h => h rfl⟩
  · have hstyle : "style" ∉ p.names := by cases p <;> decide
    have hsame : ∀ k ∈ p.names,
        (Declarations.ofTag t).get? k =
          (Declarations.ofTag (t.withoutAttributes p.names)).get? k := by
      intro k hk
      have hkname : k = name := by
        cases p <;> simp only [Property.names, List.mem_singleton] at hk hname
        case decorations => exact absurd rfl hp
        all_goals rw [hk, hname]
      rw [Declarations.get?_ofTag_withoutAttributes_of_mem t hstyle hk, Declarations.get?_ofTag,
        hkname, hvalue, Option.some_or]
    have hsize : p.isLength = true → (Declarations.ofTag t).get? "font-size" =
        (Declarations.ofTag (t.withoutAttributes p.names)).get? "font-size" := by
      intro hlength
      have hnot : "font-size" ∉ p.names := by cases p <;> revert hlength <;> decide
      exact (Declarations.get?_ofTag_withoutAttributes_of_notMem t hstyle hnot).symm
    refine ⟨fun _ h => absurd h hp, fun _ => ?_⟩
    exact of_derive_of_get? (Declarations.distinct_ofTag _) (Declarations.distinct_ofTag _)
      ((Declarations.distinct_ofTag _).declaresOnce fun h => absurd h hp)
      ((Declarations.distinct_ofTag _).declaresOnce fun h => absurd h hp) hsame hsize

/-- A text whose style asks for blue letters and an overline, between attributes that ask for
something else. -/
def outvoted : Xml.Tag :=
  ⟨0, none, "text", [⟨none, "fill", "red"⟩, ⟨none, "text-decoration", "none"⟩,
    ⟨none, "style", "fill: blue; text-decoration: overline"⟩,
    ⟨none, "text-decoration-line", "underline"⟩]⟩

/-- The letters are blue, but the text does not have the line that it would have without the
attributes. -/
theorem of_derive_withoutAttributes_outvoted :
    (outvoted.inline? "fill" = some "blue" ∧ outvoted.inline? "text-decoration" = some "overline" ∧
      Decorations.declared? "overline" ≠ none) ∧
      (initial.derive (.ofTag outvoted) .initial).fill =
        (initial.derive (.ofTag (outvoted.withoutAttributes ["fill"])) .initial).fill ∧
      (initial.derive (.ofTag outvoted) .initial).decorations ≠
        (initial.derive (.ofTag (outvoted.withoutAttributes
          ["text-decoration", "text-decoration-line"])) .initial).decorations := by
  have hfill : outvoted.inline? "fill" = some "blue" := by decide +kernel
  have hline : outvoted.inline? "text-decoration" = some "overline" := by decide +kernel
  have hdeclared : Decorations.declared? "overline" ≠ none := by decide +kernel
  have hdisplaces : outvoted.Displaces :=
    ⟨"text-decoration", "text-decoration-line", ⟨false, true, false⟩, ⟨false, false, true⟩,
      fun _ => List.mem_pair, by decide, by decide +kernel, by decide +kernel, by decide +kernel,
      by decide, Or.inl (by decide +kernel)⟩
  refine ⟨⟨hfill, hline, hdeclared⟩, ?_, fun hsame => ?_⟩
  · exact (of_derive_withoutAttributes (p := .fill) (by decide) hfill nofun).mpr nofun
  · exact (of_derive_withoutAttributes (p := .decorations) (by decide) hline fun _ => hdeclared).mp
      hsame rfl hdisplaces

end Style

end SvgDisplayList
