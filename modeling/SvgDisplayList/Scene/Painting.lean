import SvgDisplayList.Display.Command
import SvgDisplayList.Scene.Registry

/-!
# From paint sources to paints

A paint source is resolved at the element that it paints: the current colour and the opacities come
from the style, a reference is looked up in the registry.  What goes wrong is reported and leaves
the fallback, if there is one.
-/

namespace SvgDisplayList

/-- What paint sources are resolved against. -/
structure PaintScope where
  registry : Registry
  sizes : ReferenceSizes
  box? : Option Box

namespace PaintScope

/-- The paint of a gradient or of what is no gradient. -/
def server (scope : PaintScope) (id : String) (opacity : Float32) (fallback : Option Paint) :
    Option Paint × List ElementError :=
  match scope.registry.gradient? id with
  | some g =>
    if g.stops.isEmpty then (fallback, [.gradientWithoutStops id])
    else (((g.resolve? scope.box? scope.sizes).map fun r => .gradient r opacity).or fallback, [])
  | none =>
    match scope.registry.element? id with
    | some (e, _) => (fallback, if e.name = "pattern" then [] else [.unresolvedReference id])
    | none => (fallback, [.unresolvedReference id])

/-- The paint that a source asks for with an opacity of its own, and what went wrong. -/
def paint (scope : PaintScope) (source : PaintSource) (opacity : Float32) (style : Style) :
    Option Paint × List ElementError :=
  let opacity := Binary32.clamp (opacity * style.opacity) 0 1
  match source with
  | .none => (none, [])
  | .color c => (some (.solid c.color (opacity * c.alpha)), [])
  | .currentColor => (some (.solid style.color opacity), [])
  | .server id fallback => scope.server id opacity (fallback.map fun c => .solid c opacity)

/-- The fill that a style asks for. -/
def fill (scope : PaintScope) (style : Style) : Option Fill × List ElementError :=
  let (paint, errors) := scope.paint style.fill style.fillOpacity style
  (paint.map fun p => ⟨p, style.fillRule⟩, errors)

/-- The stroke that a style asks for; one without width is none. -/
def stroke (scope : PaintScope) (style : Style) : Option Stroke × List ElementError :=
  if style.strokeWidth > 0 then
    let (paint, errors) := scope.paint style.stroke style.strokeOpacity style
    let made (p : Paint) : Stroke :=
      { paint := p
        width := snap style.strokeWidth
        cap := style.lineCap
        join := style.lineJoin
        miterLimit := style.miterLimit
        dashes := style.dashes.map snap
        dashOffset := snap style.dashOffset }
    (paint.map made, errors)
  else (none, [])

end PaintScope

namespace PathCommand

/-- The command that paints an outline, if there is anything to paint, and what went wrong with its
paints. -/
def ofSubpaths (subpaths : List Subpath) (style : Style) (registry : Registry)
    (sizes : ReferenceSizes) :
    Option PathCommand × List ElementError :=
  if subpaths.isEmpty || !style.visible then (none, [])
  else
    let scope : PaintScope := ⟨registry, sizes, bounds? subpaths⟩
    let (fill, fillErrors) := scope.fill style
    let (stroke, strokeErrors) := scope.stroke style
    let command :=
      if fill.isNone && stroke.isNone then none
      else some ⟨subpaths.map Subpath.snapped, fill, stroke⟩
    (command, fillErrors ++ strokeErrors)

end PathCommand

end SvgDisplayList
