import SvgDisplayList.Proofs.Scene.Collecting
import SvgDisplayList.Proofs.Xml.Copies

/-!
# Registries that correspond to each other

Two documents may have the same definitions up to their elements, which correspond to each other in
some way `R`.  Then their registries give the same gradients and corresponding elements under the
same identifiers, count the same, and the same is reported (`Registry.alike_collect`).
-/

namespace SvgDisplayList

variable (R : Xml.Element × List Xml.Tag → Xml.Element × List Xml.Tag → Prop)

/-! ## Definitions and collections -/

/-- Definitions are of corresponding elements of the same name, or of the same gradient. -/
inductive Definition.Alike : Definition → Definition → Prop where
  | element {e e' : Xml.Element} {above above' : List Xml.Tag}
      (corresponds : R (e, above) (e', above')) (name : e'.name = e.name) :
      Alike (.element e above) (.element e' above')
  | gradient (g : Gradient) : Alike (.gradient g) (.gradient g)

/-- Findings are definitions of the same identifier that are alike, or the same fault. -/
inductive Collection.Finding.Alike : Collection.Finding → Collection.Finding → Prop where
  | definition (id : String) {d d' : Definition} (alike : Definition.Alike R d d') :
      Alike (.definition id d) (.definition id d')
  | fault (d : Diagnostic) : Alike (.fault d) (.fault d)

/-- Entries under the same name are alike. -/
def Definition.AlikeEntry (x x' : String × Definition) : Prop :=
  x'.1 = x.1 ∧ Definition.Alike R x.2 x'.2

/-- Registries have the same identifiers with definitions that are alike. -/
structure Registry.Alike (r r' : Registry) : Prop where
  entries : List.Forall₂ (Definition.AlikeEntry R) r.entries r'.entries
  conflicts : r'.conflicts = r.conflicts

/-- Collections have registries that are alike, the same pool of gradients, and the same reports. -/
structure Collection.Alike (c c' : Collection) : Prop where
  registry : Registry.Alike R c.registry c'.registry
  gradients : c'.gradients = c.gradients
  diagnostics : c'.diagnostics = c.diagnostics

variable {R}

namespace Definition.Alike

variable {d d' : Definition} {entries entries' : Keyed Definition}

/-- Definitions that are alike have the same name. -/
lemma tagName_eq (h : Definition.Alike R d d') : d'.tagName = d.tagName := by
  cases h with
  | element _ name => exact name
  | gradient g => rfl

/-- Definitions are written into entries that are alike. -/
lemma forall₂_put (hentries : List.Forall₂ (Definition.AlikeEntry R) entries entries')
    (id : String) (h : Definition.Alike R d d') :
    List.Forall₂ (Definition.AlikeEntry R) (Keyed.put id d entries) (Keyed.put id d' entries') := by
  induction hentries with
  | nil => exact .cons ⟨rfl, h⟩ .nil
  | @cons x x' _ _ hx hrest ih =>
    obtain ⟨k, v⟩ := x
    obtain ⟨k', v'⟩ := x'
    obtain ⟨rfl, hv⟩ := hx
    unfold Keyed.put
    split_ifs
    · exact .cons ⟨rfl, h⟩ hrest
    · exact .cons ⟨rfl, hv⟩ ih

/-- Under an identifier stand definitions that are alike, or none. -/
lemma rel_get? (hentries : List.Forall₂ (Definition.AlikeEntry R) entries entries') (id : String) :
    Option.Rel (Definition.Alike R) (Keyed.get? entries id) (Keyed.get? entries' id) := by
  unfold Keyed.get?
  induction hentries with
  | nil => exact .none
  | @cons x x' _ _ hx _ ih =>
    rw [List.find?_cons, List.find?_cons, hx.1]
    cases x.1 == id with
    | true => exact .some hx.2
    | false => exact ih

end Definition.Alike

namespace Registry.Alike

variable {r r' : Registry}

/-- Both registries have the same gradients. -/
lemma gradient?_eq (h : Registry.Alike R r r') (id : String) :
    r'.gradient? id = r.gradient? id := by
  unfold Registry.gradient?
  have hget := Definition.Alike.rel_get? h.entries id
  generalize Keyed.get? r.entries id = d? at hget ⊢
  generalize Keyed.get? r'.entries id = d'? at hget ⊢
  cases hget with
  | none => rfl
  | some hd => cases hd <;> rfl

/-- Both registries have elements under the same identifiers, and they correspond. -/
lemma rel_element? (h : Registry.Alike R r r')
    {S : Xml.Element × List Xml.Tag → Xml.Element × List Xml.Tag → Prop}
    (hS : ∀ x x', R x x' → S x x') (id : String) :
    Option.Rel S (r.element? id) (r'.element? id) := by
  unfold Registry.element?
  have hget := Definition.Alike.rel_get? h.entries id
  generalize Keyed.get? r.entries id = d? at hget ⊢
  generalize Keyed.get? r'.entries id = d'? at hget ⊢
  cases hget with
  | none => exact .none
  | some hd =>
    cases hd with
    | element corresponds name => exact .some (hS _ _ corresponds)
    | gradient g => exact .none

/-- A sort of definitions that does not look into elements is counted alike. -/
lemma count_eq (h : Registry.Alike R r r') {p : Definition → Bool}
    (hp : ∀ d d', Definition.Alike R d d' → p d' = p d) : r'.count p = r.count p := by
  have hfilter : ∀ {entries entries' : Keyed Definition},
      List.Forall₂ (Definition.AlikeEntry R) entries entries' →
        (entries'.filter fun x => p x.2).length = (entries.filter fun x => p x.2).length := by
    intro entries entries' hentries
    induction hentries with
    | nil => rfl
    | @cons x x' _ _ hx _ ih =>
      rw [List.filter_cons, List.filter_cons, hp _ _ hx.2]
      split_ifs
      · rw [List.length_cons, List.length_cons, ih]
      · exact ih
  exact hfilter h.entries

/-- Both registries count the same. -/
lemma counts_eq (h : Registry.Alike R r r') : r'.counts = r.counts := by
  unfold Registry.counts
  rw [h.conflicts]
  congr 1 <;> exact h.count_eq fun d d' hd => by cases hd <;> rfl

end Registry.Alike

namespace Collection.Alike

variable {c c' : Collection}

/-- Identifiers are given meanings that are alike. -/
lemma define (h : Collection.Alike R c c') (id : String) {d d' : Definition}
    (hd : Definition.Alike R d d') :
    Collection.Alike R (c.define id d) (c'.define id d') := by
  have hentries := hd.forall₂_put h.registry.entries id
  have hget := Definition.Alike.rel_get? h.registry.entries id
  unfold Collection.define
  generalize Keyed.get? c.registry.entries id = previous? at hget ⊢
  generalize Keyed.get? c'.registry.entries id = previous'? at hget ⊢
  cases hget with
  | none => exact ⟨⟨hentries, h.registry.conflicts⟩, h.gradients, h.diagnostics⟩
  | some hprevious =>
    refine ⟨⟨hentries, ?_⟩, h.gradients, ?_⟩
    · change c'.registry.conflicts + 1 = c.registry.conflicts + 1
      rw [h.registry.conflicts]
    · change c'.diagnostics ++ _ = c.diagnostics ++ _
      rw [h.diagnostics, hd.tagName_eq, hprevious.tagName_eq]

/-- Findings that are alike are taken in. -/
lemma take (h : Collection.Alike R c c') {f f' : Finding} (hf : Finding.Alike R f f') :
    Collection.Alike R (c.take f) (c'.take f') := by
  cases hf with
  | fault d =>
    refine ⟨h.registry, h.gradients, ?_⟩
    change c'.diagnostics ++ _ = c.diagnostics ++ _
    rw [h.diagnostics]
  | definition id hd =>
    cases hd with
    | element corresponds name => exact h.define id (.element corresponds name)
    | gradient g =>
      have hadded : Collection.Alike R (c.addGradient g) (c'.addGradient g) := by
        refine ⟨h.registry, ?_, h.diagnostics⟩
        unfold Collection.addGradient
        rw [h.gradients]
      exact hadded.define id (.gradient g)

/-- Lists of findings that are alike are taken in. -/
lemma foldl (h : Collection.Alike R c c') {fs fs' : List Finding}
    (hfs : List.Forall₂ (Finding.Alike R) fs fs') :
    Collection.Alike R (fs.foldl Collection.take c) (fs'.foldl Collection.take c') := by
  induction hfs generalizing c c' with
  | nil => exact h
  | cons hf _ ih => exact ih (h.take hf)

/-- What is made from nothing but findings that are alike is alike. -/
lemma ofFindings {fs fs' : List Finding} (hfs : List.Forall₂ (Finding.Alike R) fs fs') :
    Collection.Alike R (fs.foldl Collection.take .empty) (fs'.foldl Collection.take .empty) :=
  foldl ⟨⟨.nil, rfl⟩, rfl, rfl⟩ hfs

/-- Finished registries are alike. -/
lemma finish (h : Collection.Alike R c c') : Registry.Alike R c.finish c'.finish := by
  refine ⟨?_, h.registry.conflicts⟩
  unfold Collection.finish
  rw [List.forall₂_map_left_iff, List.forall₂_map_right_iff]
  refine h.registry.entries.imp ?_
  rintro ⟨k, d⟩ ⟨k', d'⟩ ⟨rfl, hd⟩
  refine ⟨rfl, ?_⟩
  rw [h.gradients]
  cases hd with
  | element corresponds name => exact .element corresponds name
  | gradient g => exact .gradient _

end Collection.Alike

/-! ## Documents -/

open Collection

/-- Documents with findings that are alike have registries that are alike, and the same reports. -/
theorem Registry.alike_collect {root root' : Xml.Element}
    (h : List.Forall₂ (Finding.Alike R) (findings root) (findings root')) :
    Registry.Alike R (collect root).1 (collect root').1 ∧ (collect root').2 = (collect root).2 := by
  have hcollection := Collection.Alike.ofFindings h
  rw [collect_eq, collect_eq]
  exact ⟨hcollection.finish, hcollection.diagnostics⟩

/-- At corresponding elements of the same name and identifier that read as the same gradient if they
are gradients, the findings are alike. -/
lemma Collection.rel_finding?_of_eq {x x' : Xml.Element × List Xml.Tag} (hx : R x x')
    (hname : x'.1.name = x.1.name) (hid : x'.1.attribute? "id" = x.1.attribute? "id")
    (hgradient : ∀ kind id, GradientKind.ofElementName? x.1.name = some kind →
      Gradient.ofElement kind id x'.1 = Gradient.ofElement kind id x.1) :
    Option.Rel (Finding.Alike R) (finding? x) (finding? x') := by
  have hidentifier : identifier? x'.1 = identifier? x.1 := by
    unfold identifier?
    rw [hid]
  unfold finding?
  rw [hidentifier, hname]
  cases identifier? x.1 with
  | none => exact .none
  | some id =>
    refine .some ?_
    cases hkind : GradientKind.ofElementName? x.1.name with
    | none => exact .definition id (.element hx hname)
    | some kind =>
      dsimp only
      rw [hgradient kind id hkind]
      cases Gradient.ofElement kind id x.1 with
      | error err => exact .fault _
      | ok g => exact .definition id (.gradient g)

/-- At corresponding elements that differ in their places, and that read as the same gradient if
they are gradients, the findings are alike. -/
lemma Collection.rel_finding? {x x' : Xml.Element × List Xml.Tag} (hx : R x x')
    (htag : x'.1.tag.unnumbered = x.1.tag.unnumbered)
    (hgradient : ∀ kind id, GradientKind.ofElementName? x.1.name = some kind →
      Gradient.ofElement kind id x'.1 = Gradient.ofElement kind id x.1) :
    Option.Rel (Finding.Alike R) (finding? x) (finding? x') :=
  rel_finding?_of_eq hx (congrArg (·.name) htag)
    (Xml.Tag.attribute?_eq_of_unnumbered_eq htag "id") hgradient

end SvgDisplayList
