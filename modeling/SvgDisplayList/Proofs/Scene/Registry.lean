import Mathlib.Data.Set.Card
import SvgDisplayList.Proofs.Drawing.Faults
import SvgDisplayList.Proofs.Keyed
import SvgDisplayList.Proofs.Xml.Tree

/-!
# What the registry holds

A registered element stands in the document, with its ancestors, and bears its identifier
(`Registry.mem_elements_of_element?`).  Every identifier has one entry, so that the number of
elements that is counted (`Registry.counts`) is the number of identifiers of elements
(`Registry.ncard_elementIds`).  What is reported while definitions are collected is an element's own
fault.

All of this is kept by each element that is collected (`Collection.Sound.add`).
-/

namespace SvgDisplayList

/-! ## Collecting -/

namespace Collection

variable {c : Collection} {scope : List (Xml.Element × List Xml.Tag)}

/-- A collection of some of the elements of a scope. -/
structure Sound (scope : List (Xml.Element × List Xml.Tag)) (c : Collection) : Prop where
  nodup : (Keyed.names c.registry.entries).Nodup
  origin : ∀ id e ancestors, (id, .element e ancestors) ∈ c.registry.entries →
    (e, ancestors) ∈ scope ∧ identifier? e = some id
  own : ∀ name id? err, .element name id? err ∈ c.diagnostics → err.IsOwn

namespace Sound

/-- Nothing has been collected yet. -/
lemma empty (scope : List (Xml.Element × List Xml.Tag)) : Sound scope empty where
  nodup := List.nodup_nil
  origin _ _ _ h := by cases h
  own _ _ _ h := by cases h

/-- A definition is added, of an element in the scope if it is one of an element. -/
lemma define (h : c.Sound scope) {id : String} {d : Definition}
    (hd : ∀ e ancestors, d = .element e ancestors → (e, ancestors) ∈ scope ∧
      identifier? e = some id) :
    (c.define id d).Sound scope := by
  have hentries : (c.define id d).registry.entries = Keyed.put id d c.registry.entries := by
    unfold Collection.define
    dsimp only
    split <;> rfl
  refine ⟨?_, ?_, ?_⟩
  · rw [hentries]
    exact Keyed.nodup_names_put h.nodup
  · intro id' e ancestors hmem
    rw [hentries] at hmem
    rcases Keyed.mem_put hmem with ⟨rfl, rfl⟩ | hmem
    · exact hd e ancestors rfl
    · exact h.origin id' e ancestors hmem
  · intro name id? err hmem
    unfold Collection.define at hmem
    dsimp only at hmem
    split at hmem
    · exact h.own name id? err hmem
    · rcases List.mem_append.mp hmem with hmem | hmem
      · exact h.own name id? err hmem
      · cases List.mem_singleton.mp hmem

/-- An element of the scope is collected. -/
lemma add (h : c.Sound scope) {e : Xml.Element} {ancestors : List Xml.Tag}
    (he : (e, ancestors) ∈ scope) :
    (c.add e ancestors).Sound scope := by
  unfold Collection.add
  split
  · exact h
  · rename_i id hid
    split
    · refine h.define fun e' ancestors' heq => ?_
      cases heq
      exact ⟨he, hid⟩
    · split
      · have hgradient : ∀ g, (c.addGradient g).Sound scope := fun g => ⟨h.nodup, h.origin, h.own⟩
        exact (hgradient _).define fun _ _ heq => by cases heq
      · rename_i err herr
        refine ⟨h.nodup, h.origin, fun name id? err' hmem => ?_⟩
        rcases List.mem_append.mp hmem with hmem | hmem
        · exact h.own name id? err' hmem
        · cases List.mem_singleton.mp hmem
          exact (Gradient.ownFaults_ofElement _ _ _).isOwn herr

/-- A list of elements of the scope is collected. -/
lemma foldl (h : c.Sound scope) {xs : List (Xml.Element × List Xml.Tag)} (hxs : xs ⊆ scope) :
    (xs.foldl (fun c (e, ancestors) => c.add e ancestors) c).Sound scope := by
  induction xs generalizing c with
  | nil => exact h
  | cons x xs ih =>
    obtain ⟨hx, hxs⟩ := List.cons_subset.mp hxs
    exact ih (h.add hx) hxs

end Sound

/-- An element is in the finished registry as it was collected. -/
lemma mem_finish_iff {id : String} {e : Xml.Element} {ancestors : List Xml.Tag} :
    (id, .element e ancestors) ∈ c.finish.entries ↔
      (id, .element e ancestors) ∈ c.registry.entries := by
  have hcomplete : ∀ d, complete c.gradients d = .element e ancestors ↔
      d = .element e ancestors := by
    intro d
    cases d <;> simp [complete]
  unfold finish
  simp only [List.mem_map, Prod.mk.injEq, hcomplete]
  constructor
  · rintro ⟨⟨id', d⟩, hmem, rfl, rfl⟩
    exact hmem
  · intro hmem
    exact ⟨_, hmem, rfl, rfl⟩

end Collection

/-! ## The registry of a document -/

namespace Registry

/-- The identifiers of registered elements. -/
def elementIds (r : Registry) : Set String := {id | (r.element? id).isSome}

/-- An element under an identifier is in an entry. -/
lemma mem_entries_of_element? {r : Registry} {id : String} {e : Xml.Element}
    {ancestors : List Xml.Tag} (h : r.element? id = some (e, ancestors)) :
    (id, .element e ancestors) ∈ r.entries := by
  unfold element? at h
  split at h
  · rename_i hget
    cases h
    exact Keyed.mem_of_get? hget
  · cases h

variable (root : Xml.Element)

/-- The collection of a whole document. -/
lemma sound_collect :
    ∃ c : Collection, collect root = (c.finish, c.diagnostics) ∧ c.Sound (root.node.elements []) :=
  ⟨_, rfl, (Collection.Sound.empty _).foldl (List.Subset.refl _)⟩

variable {root}

/-- A registered element stands in the document and bears its identifier. -/
theorem mem_elements_of_element? {id : String} {e : Xml.Element} {ancestors : List Xml.Tag}
    (h : (collect root).1.element? id = some (e, ancestors)) :
    (e, ancestors) ∈ root.node.elements [] ∧ Collection.identifier? e = some id := by
  obtain ⟨c, hc, hsound⟩ := sound_collect root
  rw [hc] at h
  exact hsound.origin id e ancestors (Collection.mem_finish_iff.mp (mem_entries_of_element? h))

/-- What is reported while definitions are collected is an element's own fault. -/
theorem isOwn_of_mem_collect {name : String} {id? : Option String} {err : ElementError}
    (h : .element name id? err ∈ (collect root).2) : err.IsOwn := by
  obtain ⟨c, hc, hsound⟩ := sound_collect root
  rw [hc] at h
  exact hsound.own name id? err h

variable (root)

/-- Every identifier has one entry. -/
lemma nodup_names_collect : (Keyed.names (collect root).1.entries).Nodup := by
  obtain ⟨c, hc, hsound⟩ := sound_collect root
  have hnames : Keyed.names c.finish.entries = Keyed.names c.registry.entries := by
    unfold Keyed.names Collection.finish
    rw [List.map_map]
    rfl
  rw [hc, hnames]
  exact hsound.nodup

/-- The names of the entries that are elements. -/
def elementNames (r : Registry) : List String :=
  Keyed.names (r.entries.filter fun (_, d) => match d with | .element .. => true | _ => false)

/-- The identifiers of elements are the names of their entries. -/
lemma mem_elementIds_iff {r : Registry} (hnodup : (Keyed.names r.entries).Nodup) {id : String} :
    id ∈ r.elementIds ↔ id ∈ r.elementNames := by
  constructor
  · intro h
    obtain ⟨⟨e, ancestors⟩, he⟩ := Option.isSome_iff_exists.mp h
    exact List.mem_map.mpr ⟨_, List.mem_filter.mpr ⟨mem_entries_of_element? he, rfl⟩, rfl⟩
  · intro h
    obtain ⟨⟨id', d⟩, hmem, rfl⟩ := List.mem_map.mp h
    obtain ⟨hentry, hd⟩ := List.mem_filter.mp hmem
    cases d with
    | gradient g => cases hd
    | element e ancestors =>
      have hget := Keyed.get?_of_mem hnodup hentry
      unfold elementIds element?
      simp only [Set.mem_ofPred_eq, hget, Option.isSome_some]

/-- The number of elements that is counted is the number of identifiers of elements. -/
theorem ncard_elementIds :
    (collect root).1.elementIds.ncard = (collect root).1.counts.elements := by
  have hnodup := nodup_names_collect root
  have hset : (collect root).1.elementIds = ↑(collect root).1.elementNames.toFinset := by
    ext id
    rw [mem_elementIds_iff hnodup, Finset.mem_coe, List.mem_toFinset]
  have hnames : (collect root).1.elementNames.Nodup := (List.filter_sublist.map _).nodup hnodup
  rw [hset, Set.ncard_coe_finset, List.toFinset_card_of_nodup hnames]
  unfold elementNames Keyed.names
  rw [List.length_map]
  rfl

/-- The identifiers of elements are finitely many. -/
lemma finite_elementIds : (collect root).1.elementIds.Finite := by
  refine ((collect root).1.elementNames.finite_toSet).subset fun id hid => ?_
  exact (mem_elementIds_iff (nodup_names_collect root)).mp hid

end Registry

end SvgDisplayList
