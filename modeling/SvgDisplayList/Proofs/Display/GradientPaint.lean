import SvgDisplayList.Proofs.Drawing.Origin
import SvgDisplayList.Proofs.Gradient.Ramp
import SvgDisplayList.Proofs.Scene.Resolution

/-!
# Gradient paints

Every gradient that paints something has been made from gradient elements of the document
(`Settings.isServedBy_of_mem_gradients`): its kind is that of the last definition of its identifier,
and its stops are the ramp of the first element with stops on the chain of references that starts
there.  A gradient without any such element paints nothing, so that no paint is without stops.
-/

namespace SvgDisplayList

/-! ## Gradients and their elements -/

/-- A gradient is what a gradient element of a document makes under its identifier. -/
structure Gradient.IsFrom (root : Xml.Element) (g : Gradient) (e : Xml.Element) : Prop where
  listed : ∃ above, (e, above) ∈ root.node.elements []
  identifier : Collection.identifier? e = some g.id
  kind : e.name = g.kind.elementName
  reference : g.reference? = e.tag.reference?
  stops : g.stops = GradientStop.ramp 0 e.stopElements

/-- A gradient paint is served by the gradients of a document, `own` being the last definition of
its identifier and `bases` the gradients that the reference of `own` leads on to.  They are made by
the elements `first` and `rest`, of which `nearest` is the first one with stops. -/
structure ResolvedGradient.IsServedBy (root : Xml.Element) (r : ResolvedGradient) (own : Gradient)
    (bases : List Gradient) (first : Xml.Element) (rest : List Xml.Element)
    (nearest : Xml.Element) : Prop where
  last : Keyed.last? (Registry.definitions root) r.id = some (.gradient own)
  reaches : Gradient.Reaches (Registry.lastGradient? (Registry.definitions root)) [r.id]
    own.reference? bases
  made : List.Forall₂ (Gradient.IsFrom root) (own :: bases) (first :: rest)
  found : (first :: rest).find? (fun e => !e.stopElements.isEmpty) = some nearest
  ne_nil : r.stops ≠ []
  ramp : GradientStop.IsRampOf r.stops nearest
  kind : first.name = r.kind.elementName
  geometry : r.geometry.IsSound

namespace Gradient

variable {root : Xml.Element}

/-- A gradient has stops if its element has stop elements. -/
lemma IsFrom.hasStops_eq {g : Gradient} {e : Xml.Element} (h : g.IsFrom root e) :
    g.hasStops = !e.stopElements.isEmpty := by
  unfold hasStops
  rw [h.stops]
  cases e.stopElements <;> rfl

/-- Gradients that are made by elements are made by a list of elements. -/
lemma exists_forall₂_isFrom {gs : List Gradient} (h : ∀ g ∈ gs, ∃ e, g.IsFrom root e) :
    ∃ es, List.Forall₂ (IsFrom root) gs es := by
  induction gs with
  | nil => exact ⟨[], .nil⟩
  | cons g gs ih =>
    obtain ⟨⟨e, he⟩, hgs⟩ := List.forall_mem_cons.mp h
    obtain ⟨es, hes⟩ := ih hgs
    exact ⟨e :: es, .cons he hes⟩

/-- The first gradient with stops is made by the first element with stop elements. -/
lemma exists_nearest {gs : List Gradient} {es : List Xml.Element}
    (h : List.Forall₂ (IsFrom root) gs es) {g : Gradient} (hg : gs.find? hasStops = some g) :
    ∃ e, es.find? (fun e => !e.stopElements.isEmpty) = some e ∧ g.IsFrom root e := by
  induction h with
  | nil => cases hg
  | @cons g' e gs es hfrom _ ih =>
    rw [List.find?_cons, hfrom.hasStops_eq] at hg
    rw [List.find?_cons]
    cases hstops : !e.stopElements.isEmpty with
    | true =>
      rw [hstops] at hg
      cases hg
      exact ⟨e, rfl, hfrom⟩
    | false =>
      rw [hstops] at hg
      exact ih hg

end Gradient

/-! ## Definitions that are gradients -/

namespace Registry

variable {root : Xml.Element} {id : String} {g : Gradient}

/-- A gradient that is defined is made by an element. -/
lemma exists_isFrom_of_mem_definitions (h : (id, .gradient g) ∈ definitions root) :
    ∃ e, g.IsFrom root e := by
  obtain ⟨f, hf, hdefinition⟩ := List.mem_filterMap.mp h
  obtain ⟨⟨e, above⟩, hlisted, hfound⟩ := List.mem_filterMap.mp hf
  obtain ⟨id', hid, rfl⟩ := Option.map_eq_some_iff.mp hfound
  cases hkind : GradientKind.ofElementName? e.name with
  | none =>
    rw [hkind] at hdefinition
    cases hdefinition
  | some kind =>
    rw [hkind] at hdefinition
    dsimp only at hdefinition
    cases hread : Gradient.ofElement kind id' e with
    | error err =>
      rw [hread] at hdefinition
      cases hdefinition
    | ok g' =>
      rw [hread] at hdefinition
      cases hdefinition
      obtain ⟨hkind', hid', hreference, hstops⟩ := Gradient.ofElement_eq_ok hread
      refine ⟨e, ⟨above, hlisted⟩, hid' ▸ hid, ?_, hreference, hstops⟩
      rw [hkind']
      exact GradientKind.eq_elementName hkind

/-- A gradient of the registry that meets an element is served by gradients of the document. -/
theorem exists_isServedBy (h : (collect root).1.gradient? id = some g) {box? : Option Box}
    {sizes : ReferenceSizes} {r : ResolvedGradient} (hr : g.resolve? box? sizes = some r) :
    r.id = id ∧ ∃ own bases first rest nearest,
      r.IsServedBy root own bases first rest nearest := by
  obtain ⟨own, bases, hlast, hreaches, rfl⟩ := gradient?_collect_iff.mp h
  obtain ⟨hid, hkind, hstops⟩ := Gradient.foldl_takeOver own bases
  obtain ⟨hrid, hrstops, hne, hrkind, hgeometry⟩ := Gradient.resolve?_eq_some hr
  have hname : r.id = id := hrid.trans (hid.trans (id_eq_of_last? hlast))
  -- every gradient of the chain has been defined
  have hown := exists_isFrom_of_mem_definitions (Keyed.mem_of_last? hlast)
  have hbases : ∀ b ∈ bases, ∃ e, b.IsFrom root e := by
    intro b hb
    obtain ⟨id', hfound⟩ := hreaches.exists_lookup b hb
    exact exists_isFrom_of_mem_definitions (mem_gradientsOf.mp (Keyed.mem_of_last? hfound))
  obtain ⟨first, hfirst⟩ := hown
  obtain ⟨rest, hrest⟩ := Gradient.exists_forall₂_isFrom hbases
  have helements : List.Forall₂ (Gradient.IsFrom root) (own :: bases) (first :: rest) :=
    .cons hfirst hrest
  -- one of them has stops, or the gradient would have none
  cases hfind : (own :: bases).find? Gradient.hasStops with
  | none =>
    rw [hfind] at hstops
    exact absurd hstops hne
  | some b =>
    rw [hfind] at hstops
    obtain ⟨nearest, hnearest, hfrom⟩ := Gradient.exists_nearest helements hfind
    have hramp : r.stops = GradientStop.ramp 0 nearest.stopElements :=
      hrstops.trans (hstops.trans hfrom.stops)
    refine ⟨hname, own, bases, first, rest, nearest, ?_⟩
    exact
      { last := hname.symm ▸ hlast
        reaches := hname.symm ▸ hreaches
        made := helements
        found := hnearest
        ne_nil := fun hnil => hne (hrstops.symm.trans hnil)
        ramp := hramp ▸ GradientStop.isRampOf_ramp nearest
        kind := by
          rw [hrkind, hkind]
          exact hfirst.kind
        geometry := hgeometry }

end Registry

/-! ## Paints -/

/-- The paints of a drawable. -/
def Drawable.paints : Drawable → List Paint
  | .path p => (p.fill.map (·.paint)).toList ++ (p.stroke.map (·.paint)).toList
  | .text t => t.fill.toList
  | .image _ => []

/-- The gradient that a paint is. -/
def Paint.gradient? : Paint → Option ResolvedGradient
  | .solid .. => none
  | .gradient r _ => some r

/-- The gradients among the paints of a drawable. -/
def Drawable.gradients (d : Drawable) : List ResolvedGradient := d.paints.filterMap Paint.gradient?

/-- What a style paints with. -/
def Style.sources (s : Style) : List PaintSource := [s.fill, s.stroke]

namespace PaintScope

variable {scope : PaintScope} {source : PaintSource} {opacity : Float32} {style : Style}

/-- If a server paints with a gradient that is not its fallback, that is a gradient of the
registry. -/
lemma exists_gradient_of_server {id : String} {fallback : Option Paint} {p : Paint}
    {r : ResolvedGradient} (h : (scope.server id opacity fallback).1 = some p)
    (hr : p.gradient? = some r) (hfallback : fallback ≠ some p) :
    ∃ g, scope.registry.gradient? id = some g ∧ g.resolve? scope.box? scope.sizes = some r := by
  unfold server at h
  split at h
  · rename_i g hg
    split_ifs at h
    · exact absurd h hfallback
    · cases hresolved : g.resolve? scope.box? scope.sizes with
      | none =>
        rw [hresolved] at h
        exact absurd h hfallback
      | some r' =>
        rw [hresolved] at h
        cases h
        cases hr
        exact ⟨g, hg, hresolved⟩
  · split at h <;> exact absurd h hfallback

/-- A gradient paint comes from a reference to a gradient of the registry. -/
lemma exists_server_of_paint {p : Paint} {r : ResolvedGradient}
    (h : (scope.paint source opacity style).1 = some p) (hr : p.gradient? = some r) :
    ∃ id fallback g, source = .server id fallback ∧ scope.registry.gradient? id = some g ∧
      g.resolve? scope.box? scope.sizes = some r := by
  unfold paint at h
  cases source with
  | none => cases h
  | color c =>
    cases h
    cases hr
  | currentColor =>
    cases h
    cases hr
  | server id fallback =>
    obtain ⟨g, hg⟩ := exists_gradient_of_server h hr fun heq => by
      -- the fallback is a colour
      obtain ⟨c, -, rfl⟩ := Option.map_eq_some_iff.mp heq
      cases hr
    exact ⟨id, fallback, g, rfl, hg⟩

end PaintScope

/-- A paint is what a source of the style asks for. -/
def Paint.IsOf (registry : Registry) (style : Style) (p : Paint) : Prop :=
  ∃ scope source opacity, scope.registry = registry ∧ source ∈ style.sources ∧
    (PaintScope.paint scope source opacity style).1 = some p

/-- The paints of a path are what the sources of the style ask for. -/
lemma PathCommand.isOf_of_mem_paints {subpaths : List Subpath} {style : Style}
    {registry : Registry} {sizes : ReferenceSizes} {c : PathCommand}
    (h : (ofSubpaths subpaths style registry sizes).1 = some c) :
    ∀ p ∈ (Drawable.path c).paints, p.IsOf registry style := by
  intro p hp
  unfold ofSubpaths at h
  split_ifs at h
  dsimp only at h
  split_ifs at h
  cases h
  rcases List.mem_append.mp hp with hp | hp
  · obtain ⟨f, hf, rfl⟩ := Option.map_eq_some_iff.mp (Option.mem_toList.mp hp)
    obtain ⟨p, hpaint, rfl⟩ := Option.map_eq_some_iff.mp hf
    exact ⟨_, _, _, rfl, List.mem_cons_self, hpaint⟩
  · obtain ⟨k, hk, rfl⟩ := Option.map_eq_some_iff.mp (Option.mem_toList.mp hp)
    dsimp only at hk
    unfold PaintScope.stroke at hk
    split_ifs at hk
    obtain ⟨p, hpaint, rfl⟩ := Option.map_eq_some_iff.mp hk
    exact ⟨_, _, _, rfl, List.mem_cons_of_mem _ List.mem_cons_self, hpaint⟩

/-- The paint of a text is what the fill of the style asks for. -/
lemma TextCommand.isOf_of_mem_paints (e : Xml.Element) (style : Style) (registry : Registry)
    (sizes : ReferenceSizes) (fonts : FontSource) :
    Yields (TextCommand.ofElement e style registry sizes fonts) fun r =>
      ∀ c ∈ r.1, ∀ p ∈ (Drawable.text c).paints, p.IsOf registry style := by
  refine .bind' fun position => ?_
  dsimp only
  split_ifs
  · exact .ok (by simp)
  · refine .ok fun c hc p hp => ?_
    cases hc
    exact ⟨_, _, _, rfl, List.mem_cons_self, Option.mem_toList.mp hp⟩

/-- The paints of what an element draws are what the sources of its style ask for. -/
lemma Stage.isOf_of_mem_paints {stage : Stage} {e : Xml.Element} {style : Style} {d : Drawable}
    (h : stage.drawn? e style = some d) : ∀ p ∈ d.paints, p.IsOf stage.registry style := by
  unfold drawn? drawable? at h
  dsimp only at h
  split at h
  · obtain ⟨subpaths, -, h⟩ := Option.bind_eq_some_iff.mp h
    obtain ⟨c, hc, rfl⟩ := Option.map_eq_some_iff.mp h
    exact PathCommand.isOf_of_mem_paints hc
  · obtain ⟨r, hr, h⟩ := Option.bind_eq_some_iff.mp h
    obtain ⟨c, hc, rfl⟩ := Option.map_eq_some_iff.mp h
    exact (TextCommand.isOf_of_mem_paints _ _ _ _ _).of_toOption hr c hc
  · split_ifs at h
    obtain ⟨r, -, h⟩ := Option.bind_eq_some_iff.mp h
    obtain ⟨c, -, rfl⟩ := Option.map_eq_some_iff.mp h
    intro p hp
    cases hp
  · cases h

/-- The text of a square that is painted with a gradient whose stops come from another one. -/
def Xml.borrowedRamp : String :=
  "<svg><linearGradient id=\"a\"><stop offset=\"0.5\"/><stop offset=\"20%\"/></linearGradient>" ++
    "<radialGradient id=\"b\" href=\"#a\"/><rect width=\"1\" height=\"1\" fill=\"url(#b)\"/></svg>"

/-- The tree of this text. -/
def Xml.Document.borrowedRamp : Xml.Document where
  root := ⟨⟨0, none, "svg", []⟩,
    [.element ⟨1, none, "linearGradient", [⟨none, "id", "a"⟩]⟩
      [.element ⟨2, none, "stop", [⟨none, "offset", "0.5"⟩]⟩ [],
        .element ⟨3, none, "stop", [⟨none, "offset", "20%"⟩]⟩ []],
    .element ⟨4, none, "radialGradient", [⟨none, "id", "b"⟩, ⟨none, "href", "#a"⟩]⟩ [],
    .element ⟨5, none, "rect", [⟨none, "width", "1"⟩, ⟨none, "height", "1"⟩,
      ⟨none, "fill", "url(#b)"⟩]⟩ []]⟩
  beside := []

namespace Settings

variable {settings : Settings} {text : String} {raised signal : Bool} {t : Translation}

/-- Every gradient paint of a translation is asked for by the style of an element under the
identifier of the gradient, and is served by gradients of the document: its stops are the ramp of
the nearest element with stops, and its kind is that of the element it refers to. -/
theorem isServedBy_of_mem_gradients (h : settings.translateWith text raised = (.ok t, signal)) :
    ∀ c ∈ t.drawing.commands, ∀ r ∈ c.drawable.gradients,
      ∃ document e above chain fallback own bases first rest nearest,
        Xml.Document.read text = .ok document ∧ (e, above) ∈ document.root.node.elements [] ∧
        (settings.stage document.root).drawn? e (Style.descend chain) = some c.drawable ∧
        .server r.id fallback ∈ (Style.descend chain).sources ∧
        r.IsServedBy document.root own bases first rest nearest := by
  intro c hc r hr
  obtain ⟨document, hread, e, above, chain, he, hd⟩ := exists_origin h hc
  obtain ⟨p, hp, hr⟩ := List.mem_filterMap.mp hr
  obtain ⟨scope, source, opacity, hregistry, hsource, hpaint⟩ := Stage.isOf_of_mem_paints hd p hp
  obtain ⟨id, fallback, g, rfl, hg, hresolved⟩ := PaintScope.exists_server_of_paint hpaint hr
  have hfound : (Registry.collect document.root).1.gradient? id = some g := by
    rw [hregistry] at hg
    exact hg
  obtain ⟨rfl, own, bases, first, rest, nearest, hserved⟩ :=
    Registry.exists_isServedBy hfound hresolved
  exact ⟨document, e, above, chain, fallback, own, bases, first, rest, nearest, hread, he, hd,
    hsource, hserved⟩

set_option maxRecDepth 20000 in
/-- The square is painted with the stops of the other gradient, the second of which is not written
as far as the first one and is held there. -/
theorem isServedBy_of_mem_gradients_borrowedRamp :
    ∃ t, initial.translateWith Xml.borrowedRamp false = (.ok t, false) ∧
      ∃ c ∈ t.drawing.commands, ∃ r ∈ c.drawable.gradients,
        r.stops.map (·.offset) = [0.5, 0.5] ∧
        ∃ document e above chain fallback own bases first rest nearest,
          Xml.Document.read Xml.borrowedRamp = .ok document ∧
          (e, above) ∈ document.root.node.elements [] ∧
          (initial.stage document.root).drawn? e (Style.descend chain) = some c.drawable ∧
          .server r.id fallback ∈ (Style.descend chain).sources ∧
          r.IsServedBy document.root own bases first rest nearest := by
  have hread : Xml.Document.read Xml.borrowedRamp = .ok .borrowedRamp := rfl
  have hoffsets : (((initial.drawing Xml.Document.borrowedRamp.root).commands.flatMap
      (·.drawable.gradients)).map fun r => r.stops.map (·.offset)) = [[0.5, 0.5]] := by
    decide +kernel
  obtain ⟨t, ht⟩ := initial.translateTree_ok .borrowedRamp rfl fun _ => rfl
  have htext := (initial.translateWith_of_read false hread).trans ht
  rw [← initial.commands_eq rfl ht] at hoffsets
  obtain ⟨r, hr, hstops⟩ := List.mem_map.mp (hoffsets ▸ List.mem_singleton_self _)
  obtain ⟨c, hc, hr⟩ := List.mem_flatMap.mp hr
  exact ⟨t, htext, c, hc, r, hr, hstops, isServedBy_of_mem_gradients htext c hc r hr⟩

end Settings

end SvgDisplayList
