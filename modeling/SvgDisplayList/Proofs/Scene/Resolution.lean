import SvgDisplayList.Proofs.Drawing.Resemblance
import SvgDisplayList.Proofs.Inlining.Document
import SvgDisplayList.Proofs.Scene.Collecting

/-!
# What an identifier stands for

An identifier stands for its last definition: a use finds it if it is an element, a paint if it is a
gradient.  A gradient inherits from the last *gradient* of an identifier, and that is another
definition exactly if the last gradient has been replaced by an element
(`Registry.element?_collect_iff`, `Registry.gradient?_collect_iff`,
`Registry.lastGradient?_eq_or_replaced`).

So all that matters of the definitions of a document are the last ones, and the last gradients
(`Registry.inForce`): the document draws the same with the registry of these definitions alone.
-/

namespace SvgDisplayList

open Collection

/-! ## Look-ups in a collection -/

namespace Collection

variable {c : Collection} {fs : List Finding}

/-- Under an identifier stands its last definition. -/
lemma get?_foldl_take (id : String) :
    Keyed.get? (fs.foldl take .empty).registry.entries id = Keyed.last? (definitionsOf fs) id := by
  rw [entries_foldl_take, Keyed.get?_foldl_put]
  exact Option.or_none

/-- The pool has the last gradient of an identifier. -/
lemma find?_foldl_take (fs : List Finding)
    (hids : ∀ x ∈ gradientsOf (definitionsOf fs), x.2.id = x.1) (id : String) :
    (fs.foldl take .empty).gradients.find? (·.id == id) =
      Keyed.last? (gradientsOf (definitionsOf fs)) id := by
  rw [gradients_foldl_take, find?_foldl_pool hids]
  exact Option.or_none

/-- A finished registry has completed definitions. -/
lemma get?_finish (id : String) :
    Keyed.get? c.finish.entries id =
      (Keyed.get? c.registry.entries id).map (complete c.gradients) := by
  unfold finish Keyed.get?
  rw [List.find?_map, Option.map_map, Option.map_map]
  rfl

/-- The elements of a finished registry are those that were collected. -/
lemma element?_finish_iff {id : String} {e : Xml.Element} {above : List Xml.Tag} :
    c.finish.element? id = some (e, above) ↔
      Keyed.get? c.registry.entries id = some (.element e above) := by
  unfold Registry.element?
  rw [get?_finish]
  cases Keyed.get? c.registry.entries id with
  | none => simp
  | some d => cases d <;> simp [complete]

/-- The gradients of a finished registry are those that were collected, with all that they
inherit. -/
lemma gradient?_finish_iff {id : String} {g : Gradient} :
    c.finish.gradient? id = some g ↔
      ∃ g₀, Keyed.get? c.registry.entries id = some (.gradient g₀) ∧
        g = g₀.inherit c.gradients := by
  unfold Registry.gradient?
  rw [get?_finish]
  cases Keyed.get? c.registry.entries id with
  | none => simp
  | some d => cases d <;> simp [complete, eq_comm]

end Collection

/-! ## Look-ups in the registry of a document -/

namespace Registry

/-- The definitions of a document, in document order. -/
def definitions (root : Xml.Element) : List (String × Definition) := definitionsOf (findings root)

/-- The last gradient of an identifier. -/
def lastGradient? (ds : List (String × Definition)) (id : String) : Option Gradient :=
  Keyed.last? (gradientsOf ds) id

variable {root : Xml.Element} {ds : List (String × Definition)} {id : String}

/-- A gradient among definitions is the definition of its entry. -/
lemma mem_gradientsOf {g : Gradient} : (id, g) ∈ gradientsOf ds ↔ (id, .gradient g) ∈ ds := by
  unfold gradientsOf
  rw [List.mem_filterMap]
  constructor
  · rintro ⟨⟨id', d⟩, hmem, hg⟩
    cases d with
    | element e above => cases hg
    | gradient g' =>
      cases hg
      exact hmem
  · intro hmem
    exact ⟨_, hmem, rfl⟩

/-- A use finds the last definition of an identifier, if that is an element. -/
theorem element?_collect_iff {e : Xml.Element} {above : List Xml.Tag} :
    (collect root).1.element? id = some (e, above) ↔
      Keyed.last? (definitions root) id = some (.element e above) := by
  rw [collect_eq, element?_finish_iff, get?_foldl_take]
  rfl

/-- The last definition of an identifier bears it, if it is a gradient. -/
lemma id_eq_of_last? {g : Gradient}
    (h : Keyed.last? (definitions root) id = some (.gradient g)) : g.id = id :=
  id_eq_of_mem_gradientsOf (x := (id, g)) (mem_gradientsOf.mpr (Keyed.mem_of_last? h))

/-- A paint finds the last definition of an identifier, if that is a gradient, with all that it
takes over from the last gradients that its reference leads to. -/
theorem gradient?_collect_iff {g : Gradient} :
    (collect root).1.gradient? id = some g ↔
      ∃ g₀ gs, Keyed.last? (definitions root) id = some (.gradient g₀) ∧
        Gradient.Reaches (lastGradient? (definitions root)) [id] g₀.reference? gs ∧
          g = gs.foldl Gradient.takeOver g₀ := by
  have hpool := find?_foldl_take (findings root) fun x hx => id_eq_of_mem_gradientsOf hx
  rw [collect_eq, gradient?_finish_iff]
  simp only [get?_foldl_take]
  constructor
  · rintro ⟨g₀, hlast, rfl⟩
    refine ⟨g₀, g₀.bases ((findings root).foldl take .empty).gradients, hlast, ?_, rfl⟩
    have hreaches := (Gradient.bases_eq_iff hpool g₀ _).mp rfl
    rwa [id_eq_of_last? hlast] at hreaches
  · rintro ⟨g₀, gs, hlast, hreaches, rfl⟩
    refine ⟨g₀, hlast, ?_⟩
    rw [← id_eq_of_last? hlast] at hreaches
    have hbases := (Gradient.bases_eq_iff hpool g₀ gs).mpr hreaches
    unfold Gradient.inherit
    rw [hbases]

/-- The gradient that is the last definition of an identifier. -/
def gradientInForce? (ds : List (String × Definition)) (id : String) : Option Gradient :=
  match Keyed.last? ds id with
  | some (.gradient g) => some g
  | _ => none

/-- Definitions behind one of another identifier. -/
lemma last?_gradientsOf_cons (x : String × Definition) (xs : List (String × Definition)) :
    lastGradient? (x :: xs) id =
      (lastGradient? xs id).or
        (if x.1 = id then (namedGradient? x).map (·.2) else none) := by
  obtain ⟨k, d⟩ := x
  unfold lastGradient? gradientsOf
  cases d with
  | element e above =>
    rw [List.filterMap_cons_none rfl]
    split_ifs <;> exact Option.or_none.symm
  | gradient g =>
    rw [List.filterMap_cons_some (f := namedGradient?) (b := (k, g)) rfl, Keyed.last?_cons]
    rfl

/-- The last gradient of an identifier is its last definition, unless it has been replaced by an
element. -/
theorem lastGradient?_eq_or_replaced (ds : List (String × Definition)) (id : String) :
    lastGradient? ds id = gradientInForce? ds id ∨
      ∃ g e above, lastGradient? ds id = some g ∧
        Keyed.last? ds id = some (.element e above) := by
  induction ds with
  | nil => exact Or.inl rfl
  | cons x xs ih =>
    obtain ⟨k, d⟩ := x
    unfold gradientInForce? at ih ⊢
    rw [last?_gradientsOf_cons, Keyed.last?_cons]
    cases hlast : Keyed.last? xs id with
    | some last =>
      rw [hlast] at ih
      rw [Option.some_or]
      rcases ih with heq | ⟨g, e, above, hg, hlast⟩
      · cases last with
        | gradient g =>
          rw [heq]
          exact Or.inl rfl
        | element e above =>
          rw [heq]
          cases hx : (if (k, d).1 = id then (namedGradient? (k, d)).map (·.2) else none) with
          | none => exact Or.inl rfl
          | some g => exact Or.inr ⟨g, e, above, rfl, rfl⟩
      · rw [hg, hlast]
        exact Or.inr ⟨g, e, above, rfl, rfl⟩
    | none =>
      -- the identifier has no later definition, so it has no later gradient either
      have hnone : lastGradient? xs id = none := by
        unfold lastGradient?
        rw [Keyed.last?_eq_none_iff] at hlast ⊢
        rintro ⟨id', g⟩ hg
        exact hlast _ (mem_gradientsOf.mp hg)
      rw [hnone]
      by_cases hk : k = id
      · cases d with
        | gradient g => simp [hk, namedGradient?]
        | element e above => simp [hk, namedGradient?]
      · simp [hk]

/-! ## Definitions in force -/

/-- Definitions without those that have been replaced, but with the last gradient of each
identifier. -/
def inForce : List (String × Definition) → List (String × Definition)
  | [] => []
  | x :: xs =>
    if (Keyed.last? xs x.1).isNone ||
        (namedGradient? x).isSome && (lastGradient? xs x.1).isNone then
      x :: inForce xs
    else inForce xs

/-- Every identifier keeps its last definition. -/
lemma last?_inForce (ds : List (String × Definition)) (id : String) :
    Keyed.last? (inForce ds) id = Keyed.last? ds id := by
  induction ds with
  | nil => rfl
  | cons x xs ih =>
    unfold inForce
    split_ifs with hkeep
    · rw [Keyed.last?_cons, Keyed.last?_cons, ih]
    · rw [ih, Keyed.last?_cons]
      by_cases hx : x.1 = id
      · cases hlast : Keyed.last? xs id with
        | some d => rfl
        | none => simp [hx, hlast] at hkeep
      · simp [hx]

/-- Every identifier keeps its last gradient. -/
lemma lastGradient?_inForce (ds : List (String × Definition)) (id : String) :
    lastGradient? (inForce ds) id = lastGradient? ds id := by
  induction ds with
  | nil => rfl
  | cons x xs ih =>
    unfold inForce
    split_ifs with hkeep
    · rw [last?_gradientsOf_cons, last?_gradientsOf_cons, ih]
    · rw [ih, last?_gradientsOf_cons]
      by_cases hx : x.1 = id
      · cases hgradient : namedGradient? x with
        | none => simp
        | some y =>
          cases hlast : lastGradient? xs id with
          | some g => rfl
          | none => simp [hx, hgradient, hlast] at hkeep
      · simp [hx]

/-- The definitions in force are among all definitions. -/
lemma inForce_subset (ds : List (String × Definition)) : inForce ds ⊆ ds := by
  induction ds with
  | nil => exact List.Subset.refl _
  | cons x xs ih =>
    unfold inForce
    split_ifs
    · exact List.cons_subset_cons x ih
    · exact List.subset_cons_of_subset x ih

/-- The registry of a list of definitions. -/
def ofDefinitions (ds : List (String × Definition)) : Registry :=
  ((ds.map fun x => Finding.definition x.1 x.2).foldl take .empty).finish

/-- Findings without faults are their definitions. -/
lemma definitionsOf_map (ds : List (String × Definition)) :
    definitionsOf (ds.map fun x => Finding.definition x.1 x.2) = ds := by
  unfold definitionsOf
  rw [List.filterMap_map]
  exact List.filterMap_some

/-- The elements of the definitions in force are those of the document. -/
lemma element?_ofDefinitions_inForce (root : Xml.Element) (id : String) :
    (ofDefinitions (inForce (definitions root))).element? id =
      (collect root).1.element? id := by
  apply Option.ext
  rintro ⟨e, above⟩
  rw [element?_collect_iff, ofDefinitions, element?_finish_iff,
    get?_foldl_take, definitionsOf_map, last?_inForce]

/-- The gradients of the definitions in force are those of the document. -/
lemma gradient?_ofDefinitions_inForce (root : Xml.Element) (id : String) :
    (ofDefinitions (inForce (definitions root))).gradient? id =
      (collect root).1.gradient? id := by
  have hpool := find?_foldl_take (findings root) fun x hx => id_eq_of_mem_gradientsOf hx
  have hids : ∀ x ∈ gradientsOf (inForce (definitions root)), x.2.id = x.1 := by
    rintro ⟨id, g⟩ hx
    have hmem := inForce_subset _ (mem_gradientsOf.mp hx)
    exact id_eq_of_mem_gradientsOf (x := (id, g)) (mem_gradientsOf.mpr hmem)
  have hpool' := find?_foldl_take
    ((inForce (definitions root)).map fun x => Finding.definition x.1 x.2)
    (by rwa [definitionsOf_map])
  simp only [definitionsOf_map] at hpool'
  have hsame := fun id => (hpool' id).trans ((lastGradient?_inForce _ id).trans (hpool id).symm)
  apply Option.ext
  intro g
  rw [collect_eq, ofDefinitions, gradient?_finish_iff,
    gradient?_finish_iff]
  simp only [get?_foldl_take, definitionsOf_map, last?_inForce, Gradient.inherit_eq_of_find? hsame]
  rfl

end Registry

/-! ## What a document draws -/

namespace Stage

/-- Every place corresponds to itself alone. -/
lemma biUnique_eq : Relator.BiUnique (Eq : Nat → Nat → Prop) :=
  ⟨fun _ _ _ h h' => h.trans h'.symm, fun _ _ _ h h' => h.symm.trans h'⟩

/-- Stages with the same elements and gradients draw the same. -/
lemma nodes_eq_of_registry (stage stage' : Stage)
    (helement : ∀ id, stage'.registry.element? id = stage.registry.element? id)
    (hgradient : ∀ id, stage'.registry.gradient? id = stage.registry.gradient? id)
    (hfonts : stage'.fonts = stage.fonts) (hwidth : stage'.viewportWidth = stage.viewportWidth)
    (hheight : stage'.viewportHeight = stage.viewportHeight)
    (hlimit : stage'.reuseLimit = stage.reuseLimit) (depth : Nat) (ns : List Xml.Node)
    (above : List Xml.Tag) (place : Place) :
    stage'.nodes (stage'.reuse depth) ns above place =
      stage.nodes (stage.reuse depth) ns above place := by
  have hself : ∀ x : Xml.Element × List Xml.Tag, Xml.Element.ResemblesBelow Eq x x :=
    .refl fun _ => rfl
  have halike : stage.Alike Eq stage' := by
    refine ⟨hgradient, fun id => ?_, hfonts, hwidth, hheight, hlimit⟩
    rw [helement]
    cases stage.registry.element? id with
    | none => exact .none
    | some x => exact .some (hself x)
  have hnode := (node_resembles biUnique_eq halike depth).2
  induction ns with
  | nil => rw [nodes, nodes]
  | cons n ns ih =>
    rw [nodes_cons, nodes_cons, ih]
    cases n with
    | text s => rw [node, node]
    | element tag children =>
      have hself := hself (⟨tag, children⟩, above)
      have hnode := hnode ⟨tag, children⟩ ⟨tag, children⟩ above above place hself.1 hself.2
      unfold Xml.Element.node at hnode
      rw [hnode]

end Stage

/-- The text of a gradient that is replaced by a group, and of another one that refers to it. -/
def Xml.replacedGradient : String :=
  "<svg><linearGradient id=\"a\"><stop/></linearGradient><g id=\"a\"/>" ++
    "<linearGradient id=\"b\" href=\"#a\"/><rect width=\"1\" height=\"1\" fill=\"url(#b)\"/></svg>"

/-- The tree of this text. -/
def Xml.Document.replacedGradient : Xml.Document where
  root := ⟨⟨0, none, "svg", []⟩,
    [.element ⟨1, none, "linearGradient", [⟨none, "id", "a"⟩]⟩ [.element ⟨2, none, "stop", []⟩ []],
    .element ⟨3, none, "g", [⟨none, "id", "a"⟩]⟩ [],
    .element ⟨4, none, "linearGradient", [⟨none, "id", "b"⟩, ⟨none, "href", "#a"⟩]⟩ [],
    .element ⟨5, none, "rect", [⟨none, "width", "1"⟩, ⟨none, "height", "1"⟩,
      ⟨none, "fill", "url(#b)"⟩]⟩ []]⟩
  beside := []

namespace Settings

/-- A use finds the last definition of an identifier if it is an element, and a paint finds it if it
is a gradient.  A gradient inherits from the last gradient of an identifier, which is its last
definition unless it has been replaced by an element.  Every other definition that has been replaced
has no influence on any command. -/
theorem commands_of_last_definitions (settings : Settings) (document : Xml.Document) :
    let ds := Registry.definitions document.root
    let registry := (Registry.collect document.root).1
    (∀ id e above, registry.element? id = some (e, above) ↔
      Keyed.last? ds id = some (.element e above)) ∧
    (∀ id g, registry.gradient? id = some g ↔
      ∃ g₀ gs, Keyed.last? ds id = some (.gradient g₀) ∧
        Gradient.Reaches (Registry.lastGradient? ds) [id] g₀.reference? gs ∧
          g = gs.foldl Gradient.takeOver g₀) ∧
    (∀ id, Registry.lastGradient? ds id = Registry.gradientInForce? ds id ∨
      ∃ g e above, Registry.lastGradient? ds id = some g ∧
        Keyed.last? ds id = some (.element e above)) ∧
    ∀ raised signal t, settings.definitionsOnly = false →
      settings.translateTree document raised = (.ok t, signal) →
        let stage : Stage :=
          { settings.stage document.root with
            registry := Registry.ofDefinitions (Registry.inForce ds) }
        t.drawing.commands =
          (stage.nodes (stage.reuse settings.reuseLimit) document.root.children
            [document.root.tag] (settings.rootPlace document.root)).commands := by
  refine ⟨fun _ _ _ => Registry.element?_collect_iff, fun _ _ => Registry.gradient?_collect_iff,
    Registry.lastGradient?_eq_or_replaced _, fun raised signal t hdraw ht => ?_⟩
  dsimp only
  rw [settings.commands_eq hdraw ht]
  unfold drawing
  rw [Stage.nodes_eq_of_registry (settings.stage document.root)
    { settings.stage document.root with
      registry := Registry.ofDefinitions (Registry.inForce (Registry.definitions document.root)) }
    (Registry.element?_ofDefinitions_inForce document.root)
    (Registry.gradient?_ofDefinitions_inForce document.root) rfl rfl rfl rfl]

set_option maxRecDepth 20000 in
/-- A use finds the group that has replaced the gradient, and no paint finds the gradient.  The
other gradient, which has no stops of its own, has those of the replaced one all the same, and the
square is painted with them.  -/
theorem commands_of_last_definitions_replaced :
    Xml.Document.read Xml.replacedGradient = .ok .replacedGradient ∧
    (∃ e above, (Registry.collect Xml.Document.replacedGradient.root).1.element? "a" =
      some (e, above) ∧ e.name = "g") ∧
    (∃ base, Registry.lastGradient?
      (Registry.definitions Xml.Document.replacedGradient.root) "a" = some base ∧
      ∃ g₀ g, Keyed.last? (Registry.definitions Xml.Document.replacedGradient.root) "b" =
        some (.gradient g₀) ∧ g₀.stops.length = 0 ∧
        (Registry.collect Xml.Document.replacedGradient.root).1.gradient? "b" = some g ∧
        g.stops = base.stops ∧ base.stops.length = 1) ∧
    initial.definitionsOnly = false ∧
    ∃ t, initial.translateTree .replacedGradient false = (.ok t, false) ∧
      t.drawing.commands.length = 1 ∧
      let stage : Stage :=
        { initial.stage Xml.Document.replacedGradient.root with
          registry := Registry.ofDefinitions
            (Registry.inForce (Registry.definitions Xml.Document.replacedGradient.root)) }
      t.drawing.commands =
        (stage.nodes (stage.reuse initial.reuseLimit) Xml.Document.replacedGradient.root.children
          [Xml.Document.replacedGradient.root.tag]
          (initial.rootPlace Xml.Document.replacedGradient.root)).commands := by
  have hread : Xml.Document.read Xml.replacedGradient = .ok .replacedGradient := rfl
  have hlength :
      (initial.drawing Xml.Document.replacedGradient.root).commands.length = 1 := by
    decide +kernel
  obtain ⟨helement, hgradient, -, hcommands⟩ :=
    initial.commands_of_last_definitions .replacedGradient
  obtain ⟨t, ht⟩ := initial.translateTree_ok .replacedGradient rfl fun _ => rfl
  obtain ⟨base, hbase, hend, hstops⟩ : ∃ base, Registry.lastGradient?
      (Registry.definitions Xml.Document.replacedGradient.root) "a" = some base ∧
        base.reference? = none ∧ base.stops.length = 1 := ⟨_, rfl, rfl, rfl⟩
  obtain ⟨g₀, hlast, hreference, hbare⟩ : ∃ g₀, Keyed.last?
      (Registry.definitions Xml.Document.replacedGradient.root) "b" = some (.gradient g₀) ∧
        g₀.reference? = some "a" ∧ g₀.stops = [] := ⟨_, rfl, rfl, rfl⟩
  have hreaches : Gradient.Reaches
      (Registry.lastGradient? (Registry.definitions Xml.Document.replacedGradient.root)) ["b"]
      g₀.reference? [base] := by
    rw [hreference]
    exact .step (by decide) hbase (hend ▸ .done _)
  have hinherited : ([base].foldl Gradient.takeOver g₀).stops = base.stops := by
    simp [Gradient.takeOver, hbare]
  refine ⟨hread, ⟨_, _, (helement "a" _ _).mpr rfl, rfl⟩,
    ⟨base, hbase, g₀, _, hlast, by simp [hbare],
      (hgradient "b" _).mpr ⟨g₀, [base], hlast, hreaches, rfl⟩, hinherited, hstops⟩, rfl, t, ht, ?_,
    hcommands false false t rfl ht⟩
  rw [initial.commands_eq rfl ht]
  exact hlength

end Settings

end SvgDisplayList
