import Mathlib.Tactic.Lemma
import Mathlib.Tactic.SplitIfs
import SvgDisplayList.Gradient.Chain

/-!
# What a gradient inherits from

The chain of a gradient is found by taking gradients out of a pool.  Here it is described by a
look-up and the identifiers that have been passed: a reference leads on exactly if it has not been
passed and something is found under it (`Gradient.Reaches`).  There is one such chain, and a pool
with the same look-up gives it (`Gradient.bases_eq_iff`).  Whatever its chain is, a gradient keeps
its identifier, its kind and its reference (`Gradient.kept_foldl_takeOver`).
-/

namespace SvgDisplayList

namespace Gradient

/-- The gradients that a reference leads to, nearest first, if some identifiers have been passed. -/
inductive Reaches (lookup : String → Option Gradient) :
    List String → Option String → List Gradient → Prop where
  /-- There is no reference. -/
  | done (passed : List String) : Reaches lookup passed none []
  /-- The reference leads back, or to nothing. -/
  | stop {passed : List String} {id : String} (h : id ∈ passed ∨ lookup id = none) :
      Reaches lookup passed (some id) []
  /-- The reference leads to a gradient and on from there. -/
  | step {passed : List String} {id : String} {g : Gradient} {gs : List Gradient}
      (fresh : id ∉ passed) (found : lookup id = some g)
      (rest : Reaches lookup (id :: passed) g.reference? gs) :
      Reaches lookup passed (some id) (g :: gs)

/-- A reference leads to one list of gradients. -/
lemma Reaches.unique {lookup : String → Option Gradient} {passed : List String}
    {next : Option String} {gs gs' : List Gradient} (h : Reaches lookup passed next gs)
    (h' : Reaches lookup passed next gs') : gs' = gs := by
  induction h generalizing gs' with
  | done passed =>
    cases h'
    rfl
  | stop hstop =>
    cases h' with
    | stop => rfl
    | step fresh found rest =>
      rcases hstop with hmem | hnone
      · exact absurd hmem fresh
      · rw [hnone] at found
        cases found
  | step fresh found _ ih =>
    cases h' with
    | stop hstop =>
      rcases hstop with hmem | hnone
      · exact absurd hmem fresh
      · rw [hnone] at found
        cases found
    | step _ found' rest' =>
      rw [found] at found'
      cases found'
      rw [ih rest']

/-- A pool without an identifier has what it had under all others. -/
lemma find?_without (id name : String) (pool : List Gradient) :
    (without id pool).find? (·.id == name) =
      if id = name then none else pool.find? (·.id == name) := by
  unfold without
  by_cases hid : id = name
  · rw [if_pos hid, List.find?_eq_none]
    intro g hg heq
    have hne := (List.mem_filter.mp hg).2
    rw [beq_iff_eq] at heq
    simp [heq, hid] at hne
  · rw [if_neg hid, List.find?_filter]
    congr 1
    funext g
    by_cases hg : g.id = name
    · simp [hg, Ne.symm hid]
    · simp [hg]

/-- A pool from which the identifiers that have been passed are taken gives what the reference leads
to. -/
lemma reaches_chainFrom {lookup : String → Option Gradient} (pool : List Gradient)
    (next : Option String) {passed : List String}
    (hpool : ∀ id, pool.find? (·.id == id) = if id ∈ passed then none else lookup id) :
    Reaches lookup passed next (chainFrom pool next) := by
  fun_induction chainFrom pool next generalizing passed with
  | case1 pool => exact .done passed
  | case2 pool id hnone =>
    rw [hpool] at hnone
    refine .stop ?_
    by_cases hmem : id ∈ passed
    · exact Or.inl hmem
    · rw [if_neg hmem] at hnone
      exact Or.inr hnone
  | case3 pool id g hfound ih =>
    have hfound' := hfound
    rw [hpool] at hfound'
    split_ifs at hfound' with hmem
    refine .step hmem hfound' (ih fun name => ?_)
    rw [find?_without, hpool]
    by_cases hid : id = name
    · simp [hid]
    · simp [hid, Ne.symm hid]

/-- The gradients that a gradient inherits from are those that its reference leads to, the gradient
itself having been passed. -/
theorem bases_eq_iff {lookup : String → Option Gradient} {pool : List Gradient}
    (hpool : ∀ id, pool.find? (·.id == id) = lookup id) (g : Gradient) (gs : List Gradient) :
    g.bases pool = gs ↔ Reaches lookup [g.id] g.reference? gs := by
  have hreaches : Reaches lookup [g.id] g.reference? (g.bases pool) := by
    refine reaches_chainFrom _ _ fun id => ?_
    rw [find?_without, hpool]
    by_cases hid : g.id = id
    · simp [hid]
    · simp [hid, Ne.symm hid]
  constructor
  · rintro rfl
    exact hreaches
  · intro h
    exact h.unique hreaches

/-- Pools with the same look-up give the same. -/
lemma inherit_eq_of_find? {pool pool' : List Gradient}
    (h : ∀ id, pool'.find? (·.id == id) = pool.find? (·.id == id)) (g : Gradient) :
    g.inherit pool' = g.inherit pool := by
  have hbases : g.bases pool' = g.bases pool :=
    (bases_eq_iff h g _).mpr ((bases_eq_iff (fun _ => rfl) g _).mp rfl)
  unfold inherit
  rw [hbases]

/-! ## What is not inherited -/

/-- A gradient that takes over from others stays what it is, but for its attributes and stops. -/
lemma kept_foldl_takeOver (g : Gradient) (gs : List Gradient) :
    (gs.foldl takeOver g).id = g.id ∧ (gs.foldl takeOver g).kind = g.kind ∧
      (gs.foldl takeOver g).reference? = g.reference? := by
  induction gs generalizing g with
  | nil => exact ⟨rfl, rfl, rfl⟩
  | cons b bs ih => exact ih (g.takeOver b)

/-- Inheriting keeps the identifier. -/
@[simp] lemma id_inherit (pool : List Gradient) (g : Gradient) : (g.inherit pool).id = g.id :=
  (kept_foldl_takeOver g _).1

/-- Inheriting keeps the kind. -/
@[simp] lemma kind_inherit (pool : List Gradient) (g : Gradient) :
    (g.inherit pool).kind = g.kind := (kept_foldl_takeOver g _).2.1

/-- Inheriting keeps the reference. -/
@[simp] lemma reference?_inherit (pool : List Gradient) (g : Gradient) :
    (g.inherit pool).reference? = g.reference? := (kept_foldl_takeOver g _).2.2

end Gradient

end SvgDisplayList
