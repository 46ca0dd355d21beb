import SvgDisplayList.Gradient.Basic

/-!
# Inheritance among gradients

A gradient may refer to another one and take over what it does not say itself.  The gradients that
are reached in this way form its chain.  Each can be reached once: a gradient that has been reached
is taken out of the pool, and a reference to one that is not in the pool ends the chain.  So the
chain ends on every graph of references.
-/

namespace SvgDisplayList

namespace GradientAttributes

/-- The attributes of `a`, and those of `b` where `a` has none. -/
def orElse (a b : GradientAttributes) : GradientAttributes where
  x₁ := a.x₁.or b.x₁
  y₁ := a.y₁.or b.y₁
  x₂ := a.x₂.or b.x₂
  y₂ := a.y₂.or b.y₂
  cx := a.cx.or b.cx
  cy := a.cy.or b.cy
  r := a.r.or b.r
  fx := a.fx.or b.fx
  fy := a.fy.or b.fy
  units := a.units.or b.units
  spread := a.spread.or b.spread
  transform := a.transform.or b.transform

end GradientAttributes

namespace Gradient

/-- A pool without the gradients of an identifier. -/
def without (id : String) (pool : List Gradient) : List Gradient := pool.filter (·.id != id)

theorem length_without_lt {id : String} {pool : List Gradient} {g : Gradient}
    (h : pool.find? (·.id == id) = some g) : (without id pool).length < pool.length := by
  refine List.length_filter_lt_length_iff_exists.mpr ⟨g, List.mem_of_find?_eq_some h, ?_⟩
  simpa using List.find?_some h

/-- The gradients reached from a reference inside a pool, nearest first. -/
def chainFrom (pool : List Gradient) (next : Option String) : List Gradient :=
  match next with
  | none => []
  | some id =>
    match _h : pool.find? (·.id == id) with
    | none => []
    | some g => g :: chainFrom (without id pool) g.reference?
termination_by pool.length
decreasing_by exact length_without_lt ‹_›

/-- The gradients that a gradient inherits from, nearest first. -/
def bases (all : List Gradient) (g : Gradient) : List Gradient :=
  chainFrom (without g.id all) g.reference?

/-- What a gradient takes over from another one: attributes it lacks, and the stops if it has
none. -/
def takeOver (g base : Gradient) : Gradient :=
  { g with
    attributes := g.attributes.orElse base.attributes
    stops := if g.stops.isEmpty then base.stops else g.stops }

/-- A gradient with all that it inherits. -/
def inherit (all : List Gradient) (g : Gradient) : Gradient := (g.bases all).foldl takeOver g

end Gradient

end SvgDisplayList
