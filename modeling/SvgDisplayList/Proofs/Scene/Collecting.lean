import Mathlib.Data.List.Forall2
import SvgDisplayList.Proofs.Gradient.Chain
import SvgDisplayList.Proofs.Scene.Registry

/-!
# Collecting definitions

What is collected from an element depends on the element alone: a definition, a fault, or nothing
(`Collection.finding?`).  So the registry of a document is made from the list of its findings, in
document order (`Registry.collect_eq`), and documents with findings that correspond to each other
have registries that do (`Collection.Alike.foldl`, `Registry.Alike`).

Under an identifier stands its last definition, and the pool from which gradients inherit has the
last gradient of each identifier (`Collection.get?_foldl_take`, `Collection.find?_foldl_take`).
-/

namespace SvgDisplayList

/-! ## Findings -/

namespace Collection

/-- What is found at an element that has an identifier. -/
inductive Finding where
  | definition (id : String) (d : Definition)
  | fault (d : Diagnostic)

/-- What is found at an element with its ancestors. -/
def finding? (x : Xml.Element × List Xml.Tag) : Option Finding :=
  (identifier? x.1).map fun id =>
    match GradientKind.ofElementName? x.1.name with
    | none => .definition id (.element x.1 x.2)
    | some kind =>
      match Gradient.ofElement kind id x.1 with
      | .ok g => .definition id (.gradient g)
      | .error error => .fault (.element x.1.name (some id) error)

/-- Takes in what has been found. -/
def take (c : Collection) : Finding → Collection
  | .fault d => c.report d
  | .definition id (.element e ancestors) => c.define id (.element e ancestors)
  | .definition id (.gradient g) => (c.addGradient g).define id (.gradient g)

/-- Collecting an element is taking in what is found at it. -/
lemma add_eq (c : Collection) (x : Xml.Element × List Xml.Tag) :
    c.add x.1 x.2 = ((finding? x).map c.take).getD c := by
  unfold add finding?
  cases identifier? x.1 with
  | none => rfl
  | some id =>
    dsimp only [Option.map_some, Option.getD_some]
    cases GradientKind.ofElementName? x.1.name with
    | none => rfl
    | some kind =>
      dsimp only
      cases Gradient.ofElement kind id x.1 <;> rfl

/-- What is found in a list of elements. -/
def findingsOf (xs : List (Xml.Element × List Xml.Tag)) : List Finding := xs.filterMap finding?

/-- Elements are collected by taking in what is found at them. -/
lemma foldl_add_eq (xs : List (Xml.Element × List Xml.Tag)) (c : Collection) :
    xs.foldl (fun c (e, ancestors) => c.add e ancestors) c = (findingsOf xs).foldl take c := by
  induction xs generalizing c with
  | nil => rfl
  | cons x xs ih =>
    rw [List.foldl_cons, ih]
    change (findingsOf xs).foldl take (c.add x.1 x.2) = _
    rw [add_eq]
    unfold findingsOf
    cases hx : finding? x with
    | none =>
      rw [List.filterMap_cons_none hx]
      rfl
    | some f =>
      rw [List.filterMap_cons_some hx]
      rfl

/-- The findings of a document, in document order. -/
def findings (root : Xml.Element) : List Finding := findingsOf (root.node.elements [])

end Collection

open Collection

/-- A registry is made from the findings of the document. -/
theorem Registry.collect_eq (root : Xml.Element) :
    collect root = (((findings root).foldl take .empty).finish,
      ((findings root).foldl take .empty).diagnostics) := by
  unfold collect
  rw [foldl_add_eq]
  rfl

/-! ## The parts of a collection -/

namespace Collection

namespace Finding

/-- The definition that has been found, with its identifier. -/
def definition? : Finding → Option (String × Definition)
  | definition id d => some (id, d)
  | fault _ => none

/-- The fault that has been found. -/
def fault? : Finding → Option Diagnostic
  | definition _ _ => none
  | fault d => some d

end Finding

/-- The definitions among findings. -/
def definitionsOf (fs : List Finding) : List (String × Definition) :=
  fs.filterMap Finding.definition?

/-- The gradient of an entry that is one. -/
def namedGradient? : String × Definition → Option (String × Gradient)
  | (id, .gradient g) => some (id, g)
  | (_, .element ..) => none

/-- The gradients among definitions. -/
def gradientsOf (ds : List (String × Definition)) : List (String × Gradient) :=
  ds.filterMap namedGradient?

variable {c : Collection} {fs : List Finding}

/-- A definition is written under its identifier. -/
@[simp] lemma entries_define (c : Collection) (id : String) (d : Definition) :
    (c.define id d).registry.entries = Keyed.put id d c.registry.entries := by
  unfold define
  dsimp only
  split <;> rfl

/-- Giving an identifier its meaning changes no pool. -/
@[simp] lemma gradients_define (c : Collection) (id : String) (d : Definition) :
    (c.define id d).gradients = c.gradients := by
  unfold define
  dsimp only
  split <;> rfl

/-- The entries are written one after the other. -/
lemma entries_foldl_take :
    (fs.foldl take c).registry.entries =
      (definitionsOf fs).foldl (fun es x => Keyed.put x.1 x.2 es) c.registry.entries := by
  induction fs generalizing c with
  | nil => rfl
  | cons f fs ih =>
    rw [List.foldl_cons, ih]
    cases f with
    | fault d => rfl
    | definition id d =>
      have htake : (c.take (.definition id d)).registry.entries =
          Keyed.put id d c.registry.entries := by
        cases d with
        | element e ancestors => exact entries_define c id _
        | gradient g => exact entries_define (c.addGradient g) id _
      rw [htake]
      rfl

/-- The gradients are put into the pool one after the other. -/
lemma gradients_foldl_take :
    (fs.foldl take c).gradients =
      (gradientsOf (definitionsOf fs)).foldl (fun pool x => Gradient.without x.2.id pool ++ [x.2])
        c.gradients := by
  induction fs generalizing c with
  | nil => rfl
  | cons f fs ih =>
    rw [List.foldl_cons, ih]
    cases f with
    | fault d => rfl
    | definition id d =>
      cases d with
      | element e ancestors =>
        have htake : (c.take (.definition id (.element e ancestors))).gradients = c.gradients :=
          gradients_define c id _
        rw [htake]
        rfl
      | gradient g =>
        have htake : (c.take (.definition id (.gradient g))).gradients =
            Gradient.without g.id c.gradients ++ [g] := gradients_define (c.addGradient g) id _
        rw [htake]
        rfl

end Collection

namespace Collection

/-- Gradients are found under their own identifiers. -/
lemma id_eq_of_mem_gradientsOf {xs : List (Xml.Element × List Xml.Tag)} {x : String × Gradient}
    (hx : x ∈ gradientsOf (definitionsOf (findingsOf xs))) : x.2.id = x.1 := by
  obtain ⟨⟨id, d⟩, hd, hg⟩ := List.mem_filterMap.mp hx
  obtain ⟨f, hf, hfd⟩ := List.mem_filterMap.mp hd
  obtain ⟨y, -, hy⟩ := List.mem_filterMap.mp hf
  obtain ⟨id', -, rfl⟩ := Option.map_eq_some_iff.mp hy
  cases hkind : GradientKind.ofElementName? y.1.name with
  | none =>
    rw [hkind] at hfd
    cases hfd
    cases hg
  | some kind =>
    rw [hkind] at hfd
    dsimp only at hfd
    cases hread : Gradient.ofElement kind id' y.1 with
    | error err =>
      rw [hread] at hfd
      cases hfd
    | ok g =>
      rw [hread] at hfd
      cases hfd
      cases hg
      -- reading a gradient does not change the identifier that it is read under
      unfold Gradient.ofElement at hread
      cases hattributes : GradientAttributes.ofTag y.1.tag with
      | error err =>
        rw [hattributes] at hread
        cases hread
      | ok attributes =>
        rw [hattributes] at hread
        cases hread
        rfl

/-- The pool has the last gradient of an identifier. -/
lemma find?_foldl_pool {gs : List (String × Gradient)} (hids : ∀ x ∈ gs, x.2.id = x.1)
    (pool : List Gradient) (id : String) :
    (gs.foldl (fun pool x => Gradient.without x.2.id pool ++ [x.2]) pool).find? (·.id == id) =
      (Keyed.last? gs id).or (pool.find? (·.id == id)) := by
  induction gs generalizing pool with
  | nil => rfl
  | cons x gs ih =>
    obtain ⟨hx, hgs⟩ := List.forall_mem_cons.mp hids
    have hpool : (Gradient.without x.2.id pool ++ [x.2]).find? (·.id == id) =
        if x.1 = id then some x.2 else pool.find? (·.id == id) := by
      rw [hx, List.find?_append, Gradient.find?_without]
      by_cases hid : x.1 = id <;> simp [hx, hid]
    rw [List.foldl_cons, ih hgs, hpool, Keyed.last?_cons]
    cases Keyed.last? gs id with
    | some v => rfl
    | none =>
      by_cases hid : x.1 = id <;> simp [hid]

/-- What is counted of definitions does not change as they inherit. -/
lemma count_finish (c : Collection) {p : Definition → Bool}
    (hp : ∀ d, p (complete c.gradients d) = p d) : c.finish.count p = c.registry.count p := by
  unfold Registry.count finish
  rw [List.filter_map, List.length_map]
  congr 1
  exact List.filter_congr fun x _ => hp x.2

/-- Inheriting changes none of the counts. -/
lemma counts_finish (c : Collection) : c.finish.counts = c.registry.counts := by
  unfold Registry.counts
  congr 1
  · exact count_finish c fun d => by cases d <;> rfl
  all_goals
    refine count_finish c fun d => ?_
    cases d with
    | element e ancestors => rfl
    | gradient g => exact congrArg (· == _) (Gradient.kind_inherit c.gradients g)

end Collection

end SvgDisplayList
