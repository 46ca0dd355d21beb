import Mathlib.Data.List.Perm.Basic
import SvgDisplayList.Proofs.Scene.Resolution

/-!
# The order of definitions

Where no two elements have the same identifier, nothing is replaced: the entries of a collection are
the definitions as they were found, nothing is counted as a conflict, and what is reported are the
faults (`Collection.foldl_take_of_nodup`).  So collecting the same elements in another order gives
registries that cannot be told apart, and the same reports in another order
(`Collection.reordered_of_perm`).
-/

namespace SvgDisplayList

/-! ## Distinct names -/

namespace Keyed

variable {α : Type} {xs ys : List (String × α)} {name : String} {value : α}

/-- Where names come once, the last value under a name is the value under it. -/
lemma last?_eq_some_iff (hdistinct : (xs.map (·.1)).Nodup) :
    last? xs name = some value ↔ (name, value) ∈ xs := by
  constructor
  · exact mem_of_last?
  · intro hmem
    cases hlast : last? xs name with
    | none => exact absurd rfl (last?_eq_none_iff.mp hlast _ hmem)
    | some value' =>
      have heq := List.inj_on_of_nodup_map hdistinct (mem_of_last? hlast) hmem rfl
      rw [(Prod.mk.inj heq).2]

/-- Where names come once, the order of the entries does not matter. -/
lemma last?_eq_of_perm (hperm : ys.Perm xs) (hdistinct : (xs.map (·.1)).Nodup) (name : String) :
    last? ys name = last? xs name := by
  apply Option.ext
  intro value
  have hdistinct' : (ys.map (·.1)).Nodup := (hperm.map (·.1)).nodup_iff.mpr hdistinct
  rw [last?_eq_some_iff hdistinct', last?_eq_some_iff hdistinct, hperm.mem_iff]

/-- A new name is written at the end. -/
lemma put_of_notMem (h : name ∉ xs.map (·.1)) : put name value xs = xs ++ [(name, value)] := by
  induction xs with
  | nil => rfl
  | cons x xs ih =>
    rw [List.map_cons, List.mem_cons, not_or] at h
    unfold put
    rw [if_neg fun heq => h.1 heq.symm, ih h.2]
    rfl

/-- Nothing stands under a new name. -/
lemma get?_of_notMem (h : name ∉ xs.map (·.1)) : get? xs name = none := by
  unfold get?
  rw [Option.map_eq_none_iff, List.find?_eq_none]
  intro x hx
  rw [beq_iff_eq]
  exact fun heq => h (heq ▸ List.mem_map_of_mem hx)

end Keyed

/-! ## Collecting without replacements -/

namespace Collection

variable {c : Collection} {fs : List Finding}

/-- A new identifier gets its meaning without a conflict. -/
lemma define_of_notMem {id : String} (h : id ∉ c.registry.entries.map (·.1)) (d : Definition) :
    c.define id d =
      { c with registry := { c.registry with entries := c.registry.entries ++ [(id, d)] } } := by
  unfold define
  rw [Keyed.get?_of_notMem h, Keyed.put_of_notMem h]

/-- Taking in a definition of a new identifier. -/
lemma take_definition_of_notMem {id : String} (h : id ∉ c.registry.entries.map (·.1))
    (d : Definition) :
    (c.take (.definition id d)).registry =
        { c.registry with entries := c.registry.entries ++ [(id, d)] } ∧
      (c.take (.definition id d)).diagnostics = c.diagnostics := by
  cases d with
  | element e ancestors =>
    change (c.define id _).registry = _ ∧ (c.define id _).diagnostics = _
    rw [define_of_notMem h]
    exact ⟨rfl, rfl⟩
  | gradient g =>
    have hadded : id ∉ (c.addGradient g).registry.entries.map (·.1) := h
    change ((c.addGradient g).define id _).registry = _ ∧
      ((c.addGradient g).define id _).diagnostics = _
    rw [define_of_notMem hadded]
    exact ⟨rfl, rfl⟩

/-- Findings of distinct identifiers are taken in without a conflict: the definitions are the
entries, and the faults are the reports. -/
theorem foldl_take_of_nodup (fs : List Finding)
    (h : (c.registry.entries.map (·.1) ++ (definitionsOf fs).map (·.1)).Nodup) :
    (fs.foldl take c).registry =
        { c.registry with entries := c.registry.entries ++ definitionsOf fs } ∧
      (fs.foldl take c).diagnostics = c.diagnostics ++ fs.filterMap Finding.fault? := by
  induction fs generalizing c with
  | nil =>
    rw [show definitionsOf [] = [] from rfl, List.filterMap_nil, List.append_nil, List.append_nil]
    exact ⟨rfl, rfl⟩
  | cons f fs ih =>
    rw [List.foldl_cons]
    cases f with
    | fault d =>
      obtain ⟨hregistry, hdiagnostics⟩ := ih (c := c.take (.fault d)) h
      refine ⟨hregistry, ?_⟩
      rw [hdiagnostics, List.filterMap_cons_some (f := Finding.fault?) (b := d) rfl]
      change (c.diagnostics ++ [d]) ++ _ = _
      rw [List.append_assoc]
      rfl
    | definition id d =>
      have hcons : definitionsOf (.definition id d :: fs) = (id, d) :: definitionsOf fs := rfl
      rw [hcons, List.map_cons] at h
      have hnew : id ∉ c.registry.entries.map (·.1) := fun hid =>
        (List.nodup_append.mp h).2.2 id hid id List.mem_cons_self rfl
      obtain ⟨hregistry, hdiagnostics⟩ := take_definition_of_notMem hnew d
      have hrest : ((c.take (.definition id d)).registry.entries.map (·.1) ++
          (definitionsOf fs).map (·.1)).Nodup := by
        rw [hregistry, List.map_append, List.append_assoc]
        exact h
      obtain ⟨ihregistry, ihdiagnostics⟩ := ih hrest
      rw [ihregistry, ihdiagnostics, hregistry, hdiagnostics, hcons]
      constructor
      · dsimp only
        rw [List.append_assoc]
        rfl
      · rfl

/-! ## Elements in another order -/

/-- What is collected of elements, without the root element. -/
def ofElements (xs : List (Xml.Element × List Xml.Tag)) : Collection :=
  (findingsOf xs).foldl take .empty

/-- The registry of a document is what is collected of its elements. -/
lemma collect_eq_ofElements (root : Xml.Element) :
    Registry.collect root = ((ofElements (root.node.elements [])).finish,
      (ofElements (root.node.elements [])).diagnostics) :=
  Registry.collect_eq root

/-- No two elements have the same identifier. -/
def DistinctIdentifiers (xs : List (Xml.Element × List Xml.Tag)) : Prop :=
  (xs.filterMap fun x => identifier? x.1).Nodup

/-- Collections that cannot be told apart by look-ups and counts, and that report the same up to its
order. -/
structure Reordered (c c' : Collection) : Prop where
  element : ∀ id, c'.finish.element? id = c.finish.element? id
  gradient : ∀ id, c'.finish.gradient? id = c.finish.gradient? id
  counts : c'.finish.counts = c.finish.counts
  diagnostics : c'.diagnostics.Perm c.diagnostics

variable {xs ys : List (Xml.Element × List Xml.Tag)}

/-- The definitions of elements are definitions of their identifiers. -/
lemma definitionsOf_sublist (xs : List (Xml.Element × List Xml.Tag)) :
    ((definitionsOf (findingsOf xs)).map (·.1)).Sublist
      (xs.filterMap fun x => identifier? x.1) := by
  unfold definitionsOf findingsOf
  induction xs with
  | nil => exact .slnil
  | cons x xs ih =>
    cases hid : identifier? x.1 with
    | none =>
      have hnone : finding? x = none := by
        unfold finding?
        rw [hid]
        rfl
      rw [List.filterMap_cons_none hnone, List.filterMap_cons_none (by exact hid)]
      exact ih
    | some id =>
      rw [List.filterMap_cons_some (b := id) (by exact hid)]
      have hsome : ∃ f, finding? x = some f ∧ ∀ y, f.definition? = some y → y.1 = id := by
        unfold finding?
        rw [hid]
        refine ⟨_, rfl, fun y hy => ?_⟩
        split at hy
        · cases hy
          rfl
        · dsimp only at hy
          split at hy
          · cases hy
            rfl
          · cases hy
      obtain ⟨f, hf, hname⟩ := hsome
      rw [List.filterMap_cons_some hf]
      cases hdefinition : f.definition? with
      | none =>
        rw [List.filterMap_cons_none hdefinition]
        exact ih.cons id
      | some y =>
        rw [List.filterMap_cons_some hdefinition, List.map_cons, hname y hdefinition]
        exact ih.cons_cons id

/-- Gradients among definitions of distinct identifiers have distinct identifiers. -/
lemma gradientsOf_sublist (ds : List (String × Definition)) :
    ((gradientsOf ds).map (·.1)).Sublist (ds.map (·.1)) := by
  unfold gradientsOf
  induction ds with
  | nil => exact .slnil
  | cons x ds ih =>
    obtain ⟨id, d⟩ := x
    cases d with
    | element e ancestors =>
      rw [List.filterMap_cons_none rfl]
      exact ih.cons id
    | gradient g =>
      rw [List.filterMap_cons_some (f := namedGradient?) (b := (id, g)) rfl]
      exact ih.cons_cons id

/-- What is counted of the same definitions in another order. -/
lemma counts_of_perm {r r' : Registry} (hentries : r'.entries.Perm r.entries)
    (hconflicts : r'.conflicts = r.conflicts) : r'.counts = r.counts := by
  have hcount : ∀ p, r'.count p = r.count p := fun p => (hentries.filter _).length_eq
  unfold Registry.counts
  simp only [hcount, hconflicts]

/-- The same elements in another order, no two of them with the same identifier, make collections
that cannot be told apart. -/
theorem reordered_of_perm (hperm : ys.Perm xs) (hdistinct : DistinctIdentifiers xs) :
    Reordered (ofElements xs) (ofElements ys) := by
  have hfindings : (findingsOf ys).Perm (findingsOf xs) := hperm.filterMap _
  have hdefinitions : (definitionsOf (findingsOf ys)).Perm (definitionsOf (findingsOf xs)) :=
    hfindings.filterMap _
  have hnames : ((definitionsOf (findingsOf xs)).map (·.1)).Nodup :=
    hdistinct.sublist (definitionsOf_sublist xs)
  have hnames' : ((definitionsOf (findingsOf ys)).map (·.1)).Nodup :=
    (hdefinitions.map _).nodup_iff.mpr hnames
  obtain ⟨hregistry, hreports⟩ := foldl_take_of_nodup (c := .empty) (findingsOf xs) hnames
  obtain ⟨hregistry', hreports'⟩ := foldl_take_of_nodup (c := .empty) (findingsOf ys) hnames'
  have hget : ∀ id, Keyed.get? (ofElements ys).registry.entries id =
      Keyed.get? (ofElements xs).registry.entries id := by
    intro id
    unfold ofElements
    rw [get?_foldl_take, get?_foldl_take, Keyed.last?_eq_of_perm hdefinitions hnames]
  have hpool : ∀ id, (ofElements ys).gradients.find? (·.id == id) =
      (ofElements xs).gradients.find? (·.id == id) := by
    intro id
    unfold ofElements
    rw [find?_foldl_take _ (fun x hx => id_eq_of_mem_gradientsOf hx),
      find?_foldl_take _ (fun x hx => id_eq_of_mem_gradientsOf hx)]
    exact Keyed.last?_eq_of_perm (hdefinitions.filterMap _)
      (hnames.sublist (gradientsOf_sublist _)) id
  have hentries : (ofElements ys).registry.entries.Perm (ofElements xs).registry.entries := by
    unfold ofElements
    rw [hregistry, hregistry']
    exact hdefinitions
  refine ⟨fun id => ?_, fun id => ?_, ?_, ?_⟩
  · apply Option.ext
    rintro ⟨e, above⟩
    rw [element?_finish_iff, element?_finish_iff, hget]
  · apply Option.ext
    intro g
    simp only [gradient?_finish_iff, hget, Gradient.inherit_eq_of_find? hpool]
  · rw [counts_finish, counts_finish]
    refine counts_of_perm hentries ?_
    unfold ofElements
    rw [hregistry, hregistry']
  · unfold ofElements
    rw [hreports, hreports']
    exact hfindings.filterMap _

end Collection

end SvgDisplayList
