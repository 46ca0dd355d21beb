import Mathlib.Data.List.Nodup
import SvgDisplayList.Proofs.Gradient.Chain
import SvgDisplayList.Proofs.Scene.Resolution

/-!
# Pools of gradients, resolved

A pool is resolved by giving each of its gradients what it inherits (`Gradient.Pool.resolve`).  What
a gradient can inherit is described by selections: `sel` is inheritable if taking over fills it
exactly where it is empty (`Gradient.Inheritable`), and then a gradient has in the end what the
first gradient of its chain has that has anything (`Gradient.Inheritable.inherit`).

A gradient with its chain is closed under references.  So the chain of each gradient in it stays
inside, which is why resolving a resolved pool changes nothing: a gradient has already what its
chain can give, and where the chain has nothing, none of its gradients has found anything
elsewhere (`Gradient.findSome?_map_inherit`).
-/

namespace SvgDisplayList

attribute [ext] GradientAttributes Gradient

namespace Gradient

variable {α : Type} {sel : Gradient → Option α} {lookup : String → Option Gradient}
  {passed : List String} {next : Option String} {g h : Gradient} {gs : List Gradient}

/-! ## What is inherited -/

/-- What is selected is taken over from another gradient exactly if a gradient has none itself. -/
def Inheritable (sel : Gradient → Option α) : Prop :=
  ∀ g base, sel (g.takeOver base) = (sel g).or (sel base)

/-- The stops of a gradient, if it has any. -/
def someStops? (g : Gradient) : Option (List GradientStop) :=
  if g.stops.isEmpty then none else some g.stops

/-- Stops are inherited as a whole. -/
lemma inheritable_someStops? : Inheritable someStops? := by
  intro g base
  unfold someStops? takeOver
  cases hstops : g.stops <;> simp

/-- Each attribute that is the first one present along a list of gradients. -/
def attributesAlong (gs : List Gradient) : GradientAttributes where
  x₁ := gs.findSome? (·.attributes.x₁)
  y₁ := gs.findSome? (·.attributes.y₁)
  x₂ := gs.findSome? (·.attributes.x₂)
  y₂ := gs.findSome? (·.attributes.y₂)
  cx := gs.findSome? (·.attributes.cx)
  cy := gs.findSome? (·.attributes.cy)
  r := gs.findSome? (·.attributes.r)
  fx := gs.findSome? (·.attributes.fx)
  fy := gs.findSome? (·.attributes.fy)
  units := gs.findSome? (·.attributes.units)
  spread := gs.findSome? (·.attributes.spread)
  transform := gs.findSome? (·.attributes.transform)

/-- The first stops along a list of gradients; none if there are none. -/
def stopsAlong (gs : List Gradient) : List GradientStop := (gs.findSome? someStops?).getD []

/-- A gradient that takes over from others has what the first one has that has anything. -/
lemma Inheritable.foldl_takeOver (hsel : Inheritable sel) (g : Gradient) (gs : List Gradient) :
    sel (gs.foldl takeOver g) = (g :: gs).findSome? sel := by
  induction gs generalizing g with
  | nil =>
    rw [List.foldl_nil, List.findSome?_cons, List.findSome?_nil]
    cases sel g <;> rfl
  | cons b bs ih =>
    rw [List.foldl_cons, ih, List.findSome?_cons, List.findSome?_cons, List.findSome?_cons, hsel]
    cases sel g <;> rfl

/-- A gradient has what the first one along its chain has that has anything. -/
lemma Inheritable.inherit (hsel : Inheritable sel) (pool : List Gradient) (g : Gradient) :
    sel (g.inherit pool) = (g :: g.bases pool).findSome? sel := hsel.foldl_takeOver g _

/-- The stops of a gradient are what is selected as its stops. -/
lemma stops_eq_getD (g : Gradient) : g.stops = (someStops? g).getD [] := by
  unfold someStops?
  cases g.stops <;> rfl

/-- A gradient with all that it inherits has the first of everything along its chain. -/
lemma inherit_eq_along (pool : List Gradient) (g : Gradient) :
    g.inherit pool =
      { g with
        attributes := attributesAlong (g :: g.bases pool)
        stops := stopsAlong (g :: g.bases pool) } := by
  refine Gradient.ext (id_inherit pool g) (kind_inherit pool g) ?_ (reference?_inherit pool g) ?_
  · rw [stops_eq_getD, inheritable_someStops?.inherit]
    rfl
  · -- taking over fills each attribute where it is empty
    have hattribute {β : Type} (field : GradientAttributes → Option β)
        (hfield : ∀ a b, field (a.orElse b) = (field a).or (field b)) :
        field (g.inherit pool).attributes =
          (g :: g.bases pool).findSome? fun g => field g.attributes := by
      have hinheritable : Inheritable fun g => field g.attributes := fun _ _ => hfield _ _
      exact hinheritable.inherit pool g
    apply GradientAttributes.ext
    · exact hattribute (·.x₁) fun _ _ => rfl
    · exact hattribute (·.y₁) fun _ _ => rfl
    · exact hattribute (·.x₂) fun _ _ => rfl
    · exact hattribute (·.y₂) fun _ _ => rfl
    · exact hattribute (·.cx) fun _ _ => rfl
    · exact hattribute (·.cy) fun _ _ => rfl
    · exact hattribute (·.r) fun _ _ => rfl
    · exact hattribute (·.fx) fun _ _ => rfl
    · exact hattribute (·.fy) fun _ _ => rfl
    · exact hattribute (·.units) fun _ _ => rfl
    · exact hattribute (·.spread) fun _ _ => rfl
    · exact hattribute (·.transform) fun _ _ => rfl

/-! ## Chains -/

/-- A set of gradients contains whatever its gradients refer to. -/
def IsClosed (lookup : String → Option Gradient) (gs : List Gradient) : Prop :=
  ∀ g ∈ gs, ∀ id h, g.reference? = some id → lookup id = some h → h ∈ gs

/-- What a reference leads to contains whatever is referred to there, but for what has been
passed. -/
lemma Reaches.leads (hreaches : Reaches lookup passed next gs) :
    (∀ id h, next = some id → lookup id = some h → h ∈ gs ∨ id ∈ passed) ∧
      ∀ g ∈ gs, ∀ id h, g.reference? = some id → lookup id = some h → h ∈ gs ∨ id ∈ passed := by
  induction hreaches with
  | done => simp
  | stop hstop =>
    refine ⟨fun id h hid hfound => ?_, by simp⟩
    cases hid
    rcases hstop with hmem | hnone
    · exact Or.inr hmem
    · rw [hnone] at hfound
      cases hfound
  | @step passed id first gs fresh found _ ih =>
    obtain ⟨hnext, hrest⟩ := ih
    -- what lies behind the first gradient may lead back to it
    have hbehind : ∀ id' h, lookup id' = some h → (h ∈ gs ∨ id' ∈ id :: passed) →
        h ∈ first :: gs ∨ id' ∈ passed := by
      rintro id' h hfound (hmem | hmem)
      · exact Or.inl (List.mem_cons_of_mem _ hmem)
      · rcases List.mem_cons.mp hmem with rfl | hmem
        · rw [found] at hfound
          cases hfound
          exact Or.inl List.mem_cons_self
        · exact Or.inr hmem
    refine ⟨fun id' h hid hfound => ?_, fun g' hg' id' h hid hfound => ?_⟩
    · cases hid
      rw [found] at hfound
      cases hfound
      exact Or.inl List.mem_cons_self
    · rcases List.mem_cons.mp hg' with rfl | hg'
      · exact hbehind id' h hfound (hnext id' h hid hfound)
      · exact hbehind id' h hfound (hrest g' hg' id' h hid hfound)

/-- A gradient with its chain is closed. -/
lemma Reaches.isClosed (hfound : lookup g.id = some g)
    (hreaches : Reaches lookup [g.id] g.reference? gs) : IsClosed lookup (g :: gs) := by
  obtain ⟨hnext, hrest⟩ := hreaches.leads
  intro g' hg' id h hid hlookup
  have hleads : h ∈ gs ∨ id ∈ [g.id] := by
    rcases List.mem_cons.mp hg' with rfl | hg'
    · exact hnext id h hid hlookup
    · exact hrest g' hg' id h hid hlookup
  rcases hleads with hmem | hmem
  · exact List.mem_cons_of_mem _ hmem
  · rw [List.mem_singleton.mp hmem, hfound] at hlookup
    cases hlookup
    exact List.mem_cons_self

/-- A reference into a closed set leads nowhere else. -/
lemma Reaches.subset_of_isClosed {closed : List Gradient} (hclosed : IsClosed lookup closed)
    (hreaches : Reaches lookup passed next gs)
    (hnext : ∀ id h, next = some id → lookup id = some h → h ∈ closed) : gs ⊆ closed := by
  induction hreaches with
  | done => exact List.nil_subset _
  | stop => exact List.nil_subset _
  | step _ found _ ih =>
    have hmem := hnext _ _ rfl found
    exact List.cons_subset.mpr ⟨hmem, ih (hclosed _ hmem)⟩

/-- Chains pass no identifier twice. -/
lemma Reaches.nodup_ids (hids : ∀ id g, lookup id = some g → g.id = id)
    (hreaches : Reaches lookup passed next gs) :
    (gs.map (·.id)).Nodup ∧ ∀ g ∈ gs, g.id ∉ passed := by
  induction hreaches with
  | done => simp
  | stop => simp
  | step fresh found _ ih =>
    obtain ⟨hnodup, hfresh⟩ := ih
    have hid := hids _ _ found
    refine ⟨List.nodup_cons.mpr ⟨fun hmem => ?_, hnodup⟩, List.forall_mem_cons.mpr ⟨hid ▸ fresh,
      fun g' hg' hmem => hfresh g' hg' (List.mem_cons_of_mem _ hmem)⟩⟩
    obtain ⟨g', hg', heq⟩ := List.mem_map.mp hmem
    exact hfresh g' hg' (heq ▸ hid ▸ List.mem_cons_self)

/-- Gradients that are changed but keep their references are reached in the same way. -/
lemma Reaches.map (f : Gradient → Gradient) (hf : ∀ g, (f g).reference? = g.reference?)
    (hreaches : Reaches lookup passed next gs) :
    Reaches (fun id => (lookup id).map f) passed next (gs.map f) := by
  induction hreaches with
  | done passed => exact .done passed
  | stop hstop => exact .stop (hstop.imp_right fun hnone => by rw [hnone]; rfl)
  | step fresh found _ ih =>
    refine .step fresh (by rw [found]; rfl) ?_
    rwa [hf]

/-- Along a closed chain, gradients with all that they inherit have first what they have first
themselves. -/
lemma findSome?_map_inherit (hsel : Inheritable sel) {pool : List Gradient}
    (hinside : ∀ h ∈ g :: g.bases pool, h.bases pool ⊆ g :: g.bases pool) :
    ((g :: g.bases pool).map (Gradient.inherit pool)).findSome? sel =
      (g :: g.bases pool).findSome? sel := by
  rw [List.map_cons, List.findSome?_cons, hsel.inherit]
  cases hfirst : (g :: g.bases pool).findSome? sel with
  | some v => rfl
  | none =>
    -- nothing is selected along the chain, so nothing along the chains of its gradients
    rw [List.findSome?_eq_none_iff] at hfirst
    rw [List.findSome?_eq_none_iff]
    intro h' hh'
    obtain ⟨h, hh, rfl⟩ := List.mem_map.mp hh'
    have hmem := List.mem_cons_of_mem g hh
    rw [hsel.inherit, List.findSome?_eq_none_iff]
    intro k hk
    exact hfirst k (List.cons_subset.mpr ⟨hmem, hinside h hmem⟩ hk)

/-! ## Pools -/

/-- Gradients with an identifier each of its own. -/
structure Pool where
  gradients : List Gradient
  distinct : (gradients.map (·.id)).Nodup

namespace Pool

variable {p p' : Pool} {id : String}

/-- The gradient under an identifier. -/
def get? (p : Pool) (id : String) : Option Gradient := p.gradients.find? (·.id == id)

/-- Under an identifier stands the gradient that bears it. -/
lemma get?_eq_some_iff : p.get? id = some g ↔ g ∈ p.gradients ∧ g.id = id := by
  obtain ⟨pool, hdistinct⟩ := p
  unfold get?
  dsimp only
  constructor
  · intro hfind
    exact ⟨List.mem_of_find?_eq_some hfind, by simpa using List.find?_some hfind⟩
  · rintro ⟨hmem, rfl⟩
    induction pool with
    | nil => cases hmem
    | cons h pool ih =>
      obtain ⟨hfresh, hdistinct⟩ := List.nodup_cons.mp hdistinct
      rcases List.mem_cons.mp hmem with rfl | hmem
      · simp
      · have hne : h.id ≠ g.id := fun heq => hfresh (List.mem_map.mpr ⟨g, hmem, heq.symm⟩)
        rw [List.find?_cons_of_neg (by simpa using hne)]
        exact ih hdistinct hmem

/-- Every gradient with all that it inherits. -/
def resolve (p : Pool) : Pool where
  gradients := p.gradients.map (Gradient.inherit p.gradients)
  distinct := by
    rw [List.map_map]
    simpa only [Function.comp_def, id_inherit] using p.distinct

/-- Under an identifier stands what stood there, with all that it inherits. -/
lemma get?_resolve (p : Pool) (id : String) :
    p.resolve.get? id = (p.get? id).map (Gradient.inherit p.gradients) := by
  unfold get? resolve
  rw [List.find?_map]
  simp only [Function.comp_def, id_inherit]

/-- The chain of a gradient is what its reference leads to. -/
lemma reaches_iff (p : Pool) (g : Gradient) (gs : List Gradient) :
    Reaches p.get? [g.id] g.reference? gs ↔ gs = g.bases p.gradients :=
  (bases_eq_iff (fun _ => rfl) g gs).symm.trans eq_comm

/-- The reference of a gradient leads to its chain. -/
lemma reaches_bases (p : Pool) (g : Gradient) :
    Reaches p.get? [g.id] g.reference? (g.bases p.gradients) := (p.reaches_iff g _).mpr rfl

/-- Chains stay inside the pool. -/
lemma bases_subset (p : Pool) (g : Gradient) : g.bases p.gradients ⊆ p.gradients := by
  refine (p.reaches_bases g).subset_of_isClosed (fun _ _ _ _ _ hfound => ?_)
    fun _ _ _ hfound => ?_ <;> exact (get?_eq_some_iff.mp hfound).1

/-- A gradient is reached at most once, so chains are shorter than the pool. -/
lemma length_bases_lt (hg : g ∈ p.gradients) :
    (g.bases p.gradients).length < p.gradients.length := by
  obtain ⟨hnodup, hfresh⟩ := (p.reaches_bases g).nodup_ids fun _ _ hfound =>
    (get?_eq_some_iff.mp hfound).2
  have hall : ((g :: g.bases p.gradients).map (·.id)).Nodup := by
    refine List.nodup_cons.mpr ⟨fun hmem => ?_, hnodup⟩
    obtain ⟨h, hh, heq⟩ := List.mem_map.mp hmem
    exact hfresh h hh (List.mem_singleton.mpr heq)
  have hsubset := List.map_subset (·.id) (List.cons_subset.mpr ⟨hg, p.bases_subset g⟩)
  simpa using (hall.subperm hsubset).length_le

/-- The chain of a gradient in the resolved pool is its chain, resolved. -/
lemma bases_resolve (p : Pool) (g : Gradient) :
    (g.inherit p.gradients).bases p.resolve.gradients =
      (g.bases p.gradients).map (Gradient.inherit p.gradients) := by
  refine (bases_eq_iff p.get?_resolve _ _).mpr ?_
  rw [id_inherit, reference?_inherit]
  exact (p.reaches_bases g).map _ (reference?_inherit p.gradients)

/-- A gradient that inherits from a resolved pool gets nothing new. -/
lemma inherit_resolve (hg : g ∈ p.gradients) :
    (g.inherit p.gradients).inherit p.resolve.gradients = g.inherit p.gradients := by
  have hclosed := (p.reaches_bases g).isClosed (get?_eq_some_iff.mpr ⟨hg, rfl⟩)
  have hinside : ∀ h ∈ g :: g.bases p.gradients,
      h.bases p.gradients ⊆ g :: g.bases p.gradients :=
    fun h hh => (p.reaches_bases h).subset_of_isClosed hclosed (hclosed h hh)
  have hsame {β : Type} {sel : Gradient → Option β} (hsel : Inheritable sel) :=
    findSome?_map_inherit hsel hinside
  rw [inherit_eq_along p.resolve.gradients, bases_resolve, ← List.map_cons]
  conv_rhs => rw [inherit_eq_along]
  refine Gradient.ext (id_inherit _ g) (kind_inherit _ g) ?_ (reference?_inherit _ g) ?_
  · exact congrArg (·.getD []) (hsame inheritable_someStops?)
  · change attributesAlong _ = attributesAlong _
    unfold attributesAlong
    congr 1 <;> exact hsame fun _ _ => rfl

/-- Pools that differ in the order of their gradients have the same under every identifier. -/
lemma get?_eq_of_perm (hperm : p'.gradients.Perm p.gradients) (id : String) :
    p'.get? id = p.get? id := by
  apply Option.ext
  intro g
  rw [get?_eq_some_iff, get?_eq_some_iff, hperm.mem_iff]

end Pool

end Gradient

/-! ## The gradients of a document -/

namespace Registry

open Collection

/-- Identifiers stay distinct when the last gradient of each is put into a pool. -/
lemma nodup_foldl_pool {pool : List Gradient} (hdistinct : (pool.map (·.id)).Nodup)
    (gs : List (String × Gradient)) :
    ((gs.foldl (fun pool x => Gradient.without x.2.id pool ++ [x.2]) pool).map (·.id)).Nodup := by
  induction gs generalizing pool with
  | nil => exact hdistinct
  | cons x gs ih =>
    refine ih ?_
    rw [List.map_append, List.nodup_append]
    refine ⟨(List.filter_sublist.map _).nodup hdistinct, List.nodup_singleton _, ?_⟩
    intro id hid id' hid' heq
    obtain ⟨g, hg, rfl⟩ := List.mem_map.mp hid
    cases List.mem_singleton.mp hid'
    have hne : g.id ≠ x.2.id := by simpa using (List.mem_filter.mp hg).2
    exact hne heq

/-- The gradients that are collected from a document. -/
def pool (root : Xml.Element) : Gradient.Pool where
  gradients := ((findings root).foldl take .empty).gradients
  distinct := by
    rw [gradients_foldl_take]
    have hempty : (([] : List Gradient).map (·.id)).Nodup := List.nodup_nil
    exact nodup_foldl_pool hempty _

/-- Under an identifier stands its last gradient. -/
lemma get?_pool (root : Xml.Element) (id : String) :
    (pool root).get? id = lastGradient? (definitions root) id :=
  find?_foldl_take (findings root) (fun _ hx => id_eq_of_mem_gradientsOf hx) id

/-- A paint finds what stands in the resolved pool, unless the gradient has been replaced by an
element. -/
lemma gradient?_collect_eq_pool (root : Xml.Element) (id : String) :
    (collect root).1.gradient? id =
      (gradientInForce? (definitions root) id).bind fun _ => (pool root).resolve.get? id := by
  have hlast := lastGradient?_eq_or_replaced (definitions root) id
  rw [← get?_pool] at hlast
  unfold gradientInForce? at hlast ⊢
  unfold Registry.gradient?
  rw [collect_eq, get?_finish, get?_foldl_take, Gradient.Pool.get?_resolve]
  unfold definitions at hlast ⊢
  cases hfound : Keyed.last? (definitionsOf (findings root)) id with
  | none => rfl
  | some d =>
    cases d with
    | element e above => rfl
    | gradient g =>
      rw [hfound] at hlast
      rcases hlast with hget | ⟨-, e, above, -, hreplaced⟩
      · rw [hget]
        rfl
      · cases hreplaced

end Registry

/-- The text of a gradient that refers to one of two others, which refer to each other. -/
def Xml.gradientCycle : String :=
  "<svg><linearGradient id=\"a\" href=\"#b\"/><radialGradient id=\"b\" href=\"#c\" " ++
    "spreadMethod=\"reflect\"/><linearGradient id=\"c\" href=\"#b\" " ++
    "gradientUnits=\"userSpaceOnUse\"><stop/></linearGradient></svg>"

/-- The tree of this text. -/
def Xml.Document.gradientCycle : Xml.Document where
  root := ⟨⟨0, none, "svg", []⟩,
    [.element ⟨1, none, "linearGradient", [⟨none, "id", "a"⟩, ⟨none, "href", "#b"⟩]⟩ [],
    .element ⟨2, none, "radialGradient", [⟨none, "id", "b"⟩, ⟨none, "href", "#c"⟩,
      ⟨none, "spreadMethod", "reflect"⟩]⟩ [],
    .element ⟨3, none, "linearGradient", [⟨none, "id", "c"⟩, ⟨none, "href", "#b"⟩,
      ⟨none, "gradientUnits", "userSpaceOnUse"⟩]⟩ [.element ⟨4, none, "stop", []⟩ []]]⟩
  beside := []

namespace Gradient.Pool

/-- A resolved pool has, under the identifiers it had before, each gradient with the first of every
attribute along its chain, and with the first stops.  The chain is what the reference leads to, the
gradient itself having been passed; there is one, and it is shorter than the pool.  The order of the
pool does not matter, and a resolved pool is resolved.

The paints of a document find the gradients of its resolved pool, which has been collected with the
last gradient of each identifier; only where a gradient has been replaced by an element they find
none. -/
theorem resolve_along_chains (p : Pool) :
    (∀ g ∈ p.gradients, ∃ gs,
      (∀ gs', Reaches p.get? [g.id] g.reference? gs' ↔ gs' = gs) ∧
      gs.length < p.gradients.length ∧
      p.resolve.get? g.id = some { g with
        attributes := attributesAlong (g :: gs)
        stops := stopsAlong (g :: gs) }) ∧
    p.resolve.gradients.map (·.id) = p.gradients.map (·.id) ∧
    (∀ p' : Pool, p'.gradients.Perm p.gradients →
      ∀ id, p'.resolve.get? id = p.resolve.get? id) ∧
    p.resolve.resolve = p.resolve ∧
    ∀ root id,
      (Registry.pool root).get? id = Registry.lastGradient? (Registry.definitions root) id ∧
      (Registry.collect root).1.gradient? id =
        (Registry.gradientInForce? (Registry.definitions root) id).bind fun _ =>
          (Registry.pool root).resolve.get? id := by
  refine ⟨fun g hg => ?_, ?_, fun p' hperm id => ?_, ?_, fun root id =>
    ⟨Registry.get?_pool root id, Registry.gradient?_collect_eq_pool root id⟩⟩
  · refine ⟨g.bases p.gradients, p.reaches_iff g, length_bases_lt hg, ?_⟩
    rw [get?_resolve, get?_eq_some_iff.mpr ⟨hg, rfl⟩, Option.map_some, inherit_eq_along]
  · change (p.gradients.map (Gradient.inherit p.gradients)).map (·.id) = _
    rw [List.map_map]
    simp only [Function.comp_def, id_inherit]
  · have hsame := get?_eq_of_perm hperm
    rw [get?_resolve, get?_resolve, hsame]
    congr 1
    funext g
    exact inherit_eq_of_find? hsame g
  · have hgradients : p.resolve.resolve.gradients = p.resolve.gradients := by
      change (p.gradients.map (Gradient.inherit p.gradients)).map
        (Gradient.inherit p.resolve.gradients) = p.gradients.map (Gradient.inherit p.gradients)
      rw [List.map_map]
      exact List.map_congr_left fun g hg => inherit_resolve hg
    rw [Pool.mk.injEq]
    exact hgradients

set_option maxRecDepth 20000 in
/-- The chain of the third gradient leads to the second one and would come back then.  So the third
one is reflected as the second one is, and it keeps its own units and its own stop. -/
theorem resolve_along_chains_cycle :
    let p := Registry.pool Xml.Document.gradientCycle.root
    Xml.Document.read Xml.gradientCycle = .ok .gradientCycle ∧
    p.gradients.map (·.id) = ["a", "b", "c"] ∧
    (∃ b c g, p.get? "b" = some b ∧ p.get? "c" = some c ∧ b.kind = .radial ∧
      (∀ gs', Reaches p.get? [c.id] c.reference? gs' ↔ gs' = [b]) ∧
      p.resolve.get? "c" = some g ∧ g.kind = .linear ∧ g.stops.length = 1 ∧
      g.attributes.spread = some .reflect ∧ g.attributes.units = some .userSpaceOnUse) ∧
    p.resolve.resolve = p.resolve := by
  intro p
  have hread : Xml.Document.read Xml.gradientCycle = .ok .gradientCycle := rfl
  obtain ⟨hchains, -, -, htwice, -⟩ := resolve_along_chains p
  obtain ⟨b, hb, hkind, hreference, hspread⟩ : ∃ b, p.get? "b" = some b ∧ b.kind = .radial ∧
    b.reference? = some "c" ∧ b.attributes.spread = some .reflect := ⟨_, rfl, rfl, rfl, rfl⟩
  obtain ⟨c, hc, hkind', hreference', hstops, hspread', hunits⟩ : ∃ c, p.get? "c" = some c ∧
    c.kind = .linear ∧ c.reference? = some "b" ∧ c.stops.length = 1 ∧
      c.attributes.spread = none ∧ c.attributes.units = some .userSpaceOnUse :=
    ⟨_, rfl, rfl, rfl, rfl, rfl, rfl⟩
  obtain ⟨hmem, hid⟩ := get?_eq_some_iff.mp hc
  obtain ⟨gs, hgs, -, hresolved⟩ := hchains c hmem
  have hreaches : Reaches p.get? [c.id] c.reference? [b] := by
    rw [hreference', hid]
    refine .step (by decide) hb ?_
    rw [hreference]
    exact .stop (Or.inl (by decide))
  obtain rfl := (hgs [b]).mp hreaches
  rw [hid] at hresolved
  refine ⟨hread, rfl, ⟨b, c, _, hb, hc, hkind, hgs, hresolved, hkind', ?_, ?_, ?_⟩, htwice⟩
  · rw [stopsAlong, List.findSome?_cons, someStops?]
    cases hlist : c.stops with
    | nil => simp [hlist] at hstops
    | cons s ss => simpa [hlist] using hstops
  · simp [attributesAlong, hspread', hspread]
  · simp [attributesAlong, hunits]

end Gradient.Pool

end SvgDisplayList
