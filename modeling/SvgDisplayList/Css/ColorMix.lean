import SvgDisplayList.Css.ColorSpace

/-!
# Gamuts and mixtures

The spaces of screens and of hues hold only the colours of the unit cube; a colour outside of such a
gamut is brought back by lowering its chroma in a perceptual space, by bisection, until clipping it
no longer makes a visible difference.

Two colours are mixed in a space component by component, weighted by their shares and by their alpha
values.  A hue goes the way around the circle that the mixture asks for, and a component that is
missing from one colour is taken from the other.
-/

namespace SvgDisplayList

namespace Css

namespace SpaceColor

/-! ### Gamuts -/

/-- Whether a component lies between two bounds. -/
def within (x hi : Float32) : Bool := 0 ≤ x && x ≤ hi

/-- Whether a colour lies in the gamut of its space. -/
def inGamut (color : SpaceColor) : Bool :=
  let c := color.components
  match color.space with
  | .srgb | .srgbLinear | .displayP3 | .a98 | .proPhoto | .rec2020 =>
    within c.a 1 && within c.b 1 && within c.c 1
  | .hsl | .hwb => within c.b 100 && within c.c 100
  | _ => true

/-- A colour with every bounded component moved into its bounds. -/
def clip (color : SpaceColor) : SpaceColor :=
  let c := color.components
  match color.space with
  | .srgb | .srgbLinear | .displayP3 | .a98 | .proPhoto | .rec2020 =>
    ⟨color.space, c.map fun x => Binary32.clamp x 0 1⟩
  | .hsl | .hwb =>
    ⟨color.space,
      ⟨Binary32.remainder c.a 360, Binary32.clamp c.b 0 100, Binary32.clamp c.c 0 100, c.alpha⟩⟩
  | _ => color

/-- The distance of two colours in the perceptual space. -/
def difference (p q : SpaceColor) : Float32 :=
  let p := p.componentsBy id .oklab
  let q := q.componentsBy id .oklab
  let a := p.a - q.a
  let b := p.b - q.b
  let c := p.c - q.c
  (a * a + b * b + c * c).sqrt

/-- Lowers the chroma of a colour until it fits a space, searching between two bounds; `enter`
converts into the space. -/
def lowerChroma (enter : Components → SpaceColor) :
    (turns : Nat) → (lo hi : Float32) → (current : Components) →
    SpaceColor
  | 0, _, _, current => enter current
  | turns + 1, lo, hi, current =>
    if 0.00001 < hi - lo then
      let chroma := (lo + hi) / 2
      let current := { current with b := chroma }
      let converted := enter current
      if converted.inGamut then lowerChroma enter turns chroma hi current
      else
        let clipped := converted.clip
        if clipped.difference ⟨.oklch, current⟩ < 0.02 then clipped
        else lowerChroma enter turns lo chroma current
    else enter current

/-- A colour inside the gamut of its space that looks like the given one. -/
def mapGamutBy (fit : Components → Components) (color : SpaceColor) : SpaceColor :=
  let enter (c : Components) : SpaceColor := ⟨color.space, componentsBy fit ⟨.oklch, c⟩ color.space⟩
  let current := color.componentsBy fit .oklch
  if (current.a - 1).abs < 0.00001 || 1 < current.a then enter ⟨1, 0, 0, current.alpha⟩
  else if current.a < 0.00001 then enter ⟨0, 0, 0, current.alpha⟩
  else lowerChroma enter 200 0 current.b current

/-- A colour without missing components, inside its gamut. -/
def settledBy (fit : Components → Components) (color : SpaceColor) : SpaceColor :=
  let color : SpaceColor := ⟨color.space, color.components.resolved⟩
  if color.inGamut then color else color.mapGamutBy fit

/-- Brings the channels of a colour into the gamut of the screen. -/
def fitScreen (c : Components) : Components := (settledBy id ⟨.srgb, c⟩).components

/-- The components of a colour in another space. -/
def componentsIn (color : SpaceColor) (target : Space) : Components :=
  color.componentsBy fitScreen target

/-- A colour in another space. -/
def convert (color : SpaceColor) (target : Space) : SpaceColor :=
  ⟨target, color.componentsIn target⟩

/-- A colour inside the gamut of its space that looks like the given one. -/
def mapGamut (color : SpaceColor) : SpaceColor := color.mapGamutBy fitScreen

/-- A colour without missing components, inside its gamut. -/
def settled (color : SpaceColor) : SpaceColor := color.settledBy fitScreen

end SpaceColor

/-! ### Mixtures -/

/-- Which way around the circle two hues are mixed; `specified` leaves them as they are. -/
inductive HuePath where
  | shorter
  | longer
  | increasing
  | decreasing
  | specified
deriving DecidableEq, Repr

namespace HuePath

/-- A hue between nothing and a full turn. -/
def normalized (h : Float32) : Float32 := Binary32.remainder (Binary32.remainder h 360 + 360) 360

/-- Two hues, one of them moved by a full turn where the path asks for it. -/
def adjust (path : HuePath) (a b : Float32) : Float32 × Float32 :=
  let x := normalized a
  let y := normalized b
  let d := y - x
  match path with
  | shorter => if 180 < d then (x + 360, y) else if d < -180 then (x, y + 360) else (x, y)
  | longer =>
    if 0 < d && d < 180 then (x + 360, y)
    else if -180 < d && d < 0 then (x, y + 360) else (x, y)
  | increasing => if y < x then (x, y + 360) else (x, y)
  | decreasing => if x < y then (x + 360, y) else (x, y)
  | specified => (a, b)

end HuePath

namespace Components

/-- Components with those that are missing taken from another colour. -/
def filledFrom (c d : Components) : Components :=
  let fill (x y : Float32) : Float32 := if x.isNaN then y else x
  ⟨fill c.a d.a, fill c.b d.b, fill c.c d.c, fill c.alpha d.alpha⟩

/-- A weighted sum of two colours. -/
def blend (c : Components) (p : Float32) (d : Components) (q : Float32) : Components :=
  ⟨c.a * p + d.a * q, c.b * p + d.b * q, c.c * p + d.c * q, c.alpha * p + d.alpha * q⟩

end Components

namespace Space

/-- Which component of a space is a hue. -/
inductive HuePlace where
  | none
  | first
  | third

def hue : Space → HuePlace
  | hsl | hwb => .first
  | lch | oklch => .third
  | _ => .none

/-- A function applied to the components of a space that are not hues. -/
def mapPlain (s : Space) (f : Float32 → Float32) (c : Components) : Components :=
  match s.hue with
  | .none => c.map f
  | .first => { c with b := f c.b, c := f c.c }
  | .third => { c with a := f c.a, b := f c.b }

/-- A value so small that it counts as zero. -/
def vanishes (x : Float32) : Bool := x.abs < Float32.ofBits 0x34000000

/-- Components without meaning, such as the hue of a grey, become missing. -/
def dropPowerless (s : Space) (c : Components) : Components :=
  match s with
  | hsl =>
    let c := if vanishes c.b then { c with a := Binary32.nan } else c
    if vanishes c.c || vanishes (c.c - 100) then { c with a := Binary32.nan, b := Binary32.nan }
    else c
  | hwb => if vanishes (c.b + c.c - 100) then { c with a := Binary32.nan } else c
  | lab | oklab => if vanishes c.a then { c with b := Binary32.nan, c := Binary32.nan } else c
  | lch | oklch =>
    let c := if vanishes c.b then { c with c := Binary32.nan } else c
    if vanishes c.a then { c with b := Binary32.nan, c := Binary32.nan } else c
  | _ => c

/-- The hues of two colours moved onto the path of their mixture. -/
def adjustHues (s : Space) (path : HuePath) (c d : Components) : Components × Components :=
  match s.hue with
  | .none => (c, d)
  | .first =>
    let (x, y) := path.adjust c.a d.a
    ({ c with a := x }, { d with a := y })
  | .third =>
    let (x, y) := path.adjust c.c d.c
    ({ c with c := x }, { d with c := y })

/-- Components weighted by their alpha value. -/
def premultiplied (s : Space) (c : Components) : Components :=
  if c.alpha.isNaN then c else s.mapPlain (· * c.alpha) c

/-- Components with the full turns of their hue taken off. -/
def dropTurns (s : Space) (c : Components) : Components :=
  match s.hue with
  | .none => c
  | .first => { c with a := Binary32.remainder c.a 360 }
  | .third => { c with c := Binary32.remainder c.c 360 }

/-- Components freed of their alpha value, which is then lowered to a share of itself. -/
def unpremultiplied (s : Space) (share : Float32) (c : Components) : Components :=
  let c := s.dropTurns c
  if c.alpha.isNaN || c.alpha == 0 then c
  else { s.mapPlain (· / c.alpha) c with alpha := c.alpha * share }

end Space

namespace SpaceColor

/-- The components with which a colour takes part in a mixture. -/
def forMixture (color : SpaceColor) (s : Space) : Components :=
  if color.space = s then color.components
  else
    let converted := color.convert s
    s.dropPowerless (if converted.inGamut then converted else converted.mapGamut).components

/-- The mixture of two colours in a space, by their shares. -/
def mix (s : Space) (path : HuePath) (x : SpaceColor) (p : Float32) (y : SpaceColor) (q : Float32) :
    SpaceColor :=
  let c := x.forMixture s
  let d := y.forMixture s
  let c := c.filledFrom d
  let d := d.filledFrom c
  let (c, d) := s.adjustHues path c d
  let total := p + q
  let p := if total == 1 then p else p / total
  let q := if total == 1 then q else q / total
  let blended := (s.premultiplied c).blend p (s.premultiplied d) q
  ⟨s, s.unpremultiplied (if 1 < total then 1 else total) blended⟩

end SpaceColor

end Css

end SvgDisplayList
