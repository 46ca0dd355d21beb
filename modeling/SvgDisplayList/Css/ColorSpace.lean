import SvgDisplayList.Number.Elementary

/-!
# Colour spaces

A colour is three components and an alpha value in one of fourteen spaces.  The spaces form a tree:
each has a *parent* into which it is converted by a formula of its own, and back; the root is the
tristimulus space of daylight.  Between a space and its parent a colour is converted directly;
otherwise it travels up to the root and down from there.

A component may be missing, which is written as not a number.  A missing component counts as zero in
every conversion.

The spaces of hues hold only what a screen can show, so a colour has to be *fitted* to the screen
before it enters one of them.  How that is done is a parameter of the conversion.
-/

namespace SvgDisplayList

namespace Css

/-- The spaces a colour may be given in. -/
inductive Space where
  | srgb | srgbLinear | displayP3 | a98 | proPhoto | rec2020 | xyzD50 | xyzD65
  | lab | lch | oklab | oklch | hsl | hwb
deriving DecidableEq, Repr

/-- The components of a colour in some space. -/
structure Components where
  a : Float32
  b : Float32
  c : Float32
  alpha : Float32
deriving BEq

/-- A colour in a space. -/
structure SpaceColor where
  space : Space
  components : Components
deriving BEq

namespace Components

/-- Zero for a missing component. -/
def orZero (x : Float32) : Float32 := if x.isNaN then 0 else x

/-- The components, with zero for those that are missing. -/
def resolved (c : Components) : Components := ⟨orZero c.a, orZero c.b, orZero c.c, orZero c.alpha⟩

/-- Components with a function applied to the three of them. -/
def map (f : Float32 → Float32) (c : Components) : Components := ⟨f c.a, f c.b, f c.c, c.alpha⟩

end Components

/-- A linear map of three components. -/
structure Linear where
  row₁ : Float32 × Float32 × Float32
  row₂ : Float32 × Float32 × Float32
  row₃ : Float32 × Float32 × Float32

namespace Linear

def dot (r : Float32 × Float32 × Float32) (c : Components) : Float32 :=
  r.1 * c.a + r.2.1 * c.b + r.2.2 * c.c

def apply (m : Linear) (c : Components) : Components :=
  ⟨dot m.row₁ c, dot m.row₂ c, dot m.row₃ c, c.alpha⟩

end Linear

/-! ### Transfer curves

A negative component is treated like its magnitude, save that the power of the curve for
photographic prints has no value there. -/

/-- One with the sign of a component. -/
def signOf (x : Float32) : Float32 := if x < 0 then -1 else 1

def srgbToLinear (x : Float32) : Float32 :=
  let m := x.abs
  if m < 0.04045 then x / 12.92 else signOf x * ((m + 0.055) / 1.055).pow 2.4

def srgbFromLinear (x : Float32) : Float32 :=
  let m := x.abs
  if 0.0031308 < m then signOf x * (1.055 * m.pow (1 / 2.4) - 0.055) else 12.92 * x

def a98ToLinear (x : Float32) : Float32 := signOf x * x.abs.pow (563 / 256)

def a98FromLinear (x : Float32) : Float32 := signOf x * x.abs.pow (256 / 563)

def proPhotoToLinear (x : Float32) : Float32 :=
  let m := x.abs
  if m ≤ 16 / 512 then x / 16 else signOf x * x.pow 1.8

def proPhotoFromLinear (x : Float32) : Float32 :=
  let m := x.abs
  if 1 / 512 ≤ m then signOf x * m.pow (1 / 1.8) else 16 * x

def rec2020ToLinear (x : Float32) : Float32 :=
  let m := x.abs
  if m < 0.018053968510807 * 4.5 then x / 4.5
  else signOf x * ((m + 1.09929682680944 - 1) / 1.09929682680944).pow (1 / 0.45)

def rec2020FromLinear (x : Float32) : Float32 :=
  let m := x.abs
  if 0.018053968510807 < m then
    signOf x * (1.09929682680944 * m.pow 0.45 - (1.09929682680944 - 1))
  else 4.5 * x

/-! ### Matrices to and from the tristimulus spaces -/

def srgbLinearToXyz : Linear where
  row₁ := (0.41239079926595934, 0.357584339383878, 0.1804807884018343)
  row₂ := (0.21263900587151027, 0.715168678767756, 0.07219231536073371)
  row₃ := (0.01933081871559182, 0.11919477979462598, 0.9505321522496607)

def srgbLinearFromXyz : Linear where
  row₁ := (3.2409699419045226, -1.537383177570094, -0.4986107602930034)
  row₂ := (-0.9692436362808796, 1.8759675015077202, 0.04155505740717559)
  row₃ := (0.05563007969699366, -0.20397695888897652, 1.0569715142428786)

def displayP3ToXyz : Linear where
  row₁ := (0.4865709486482162, 0.26566769316909306, 0.1982172852343625)
  row₂ := (0.2289745640697488, 0.6917385218365064, 0.079286914093745)
  row₃ := (0, 0.04511338185890264, 1.043944368900976)

def displayP3FromXyz : Linear where
  row₁ := (2.493496911941425, -0.9313836179191239, -0.40271078445071684)
  row₂ := (-0.8294889695615747, 1.7626640603183463, 0.023624685841943577)
  row₃ := (0.03584583024378447, -0.07617238926804182, 0.9568845240076872)

def a98ToXyz : Linear where
  row₁ := (0.5766690429101305, 0.1855582379065463, 0.1882286462349947)
  row₂ := (0.29734497525053605, 0.6273635662554661, 0.07529145849399788)
  row₃ := (0.02703136138641234, 0.07068885253582723, 0.9913375368376388)

def a98FromXyz : Linear where
  row₁ := (2.0415879038107465, -0.5650069742788596, -0.34473135077832956)
  row₂ := (-0.9692436362808795, 1.8759675015077202, 0.04155505740717557)
  row₃ := (0.013444280632031142, -0.11836239223101838, 1.0151749943912054)

def proPhotoToXyz : Linear where
  row₁ := (0.7977604896723027, 0.13518583717574031, 0.0313493495815248)
  row₂ := (0.2880711282292934, 0.7118432178101014, 0.00008565396060525902)
  row₃ := (0, 0, 0.8251046025104601)

def proPhotoFromXyz : Linear where
  row₁ := (1.3457989731028281, -0.25558010007997534, -0.05110628506753401)
  row₂ := (-0.5446224939028347, 1.5082327413132781, 0.02053603239147973)
  row₃ := (0, 0, 1.2119675456389454)

def rec2020ToXyz : Linear where
  row₁ := (0.6369580483012914, 0.14461690358620832, 0.1688809751641721)
  row₂ := (0.2627002120112671, 0.6779980715188708, 0.05930171646986196)
  row₃ := (0, 0.028072693049087428, 1.060985057710791)

def rec2020FromXyz : Linear where
  row₁ := (1.7166511879712674, -0.35567078377639233, -0.25336628137365974)
  row₂ := (-0.6666843518324892, 1.6164812366349395, 0.01576854581391113)
  row₃ := (0.017639857445310783, -0.042770613257808524, 0.9421031212354738)

def d50ToD65 : Linear where
  row₁ := (0.9554734527042182, -0.023098536874261423, 0.0632593086610217)
  row₂ := (-0.028369706963208136, 1.0099954580058226, 0.021041398966943008)
  row₃ := (0.012314001688319899, -0.020507696433477912, 1.3303659366080753)

def d65ToD50 : Linear where
  row₁ := (1.0479298208405488, 0.022946793341019088, -0.05019222954313557)
  row₂ := (0.029627815688159344, 0.990434484573249, -0.01707382502938514)
  row₃ := (-0.009243058152591178, 0.015055144896577895, 0.7518742899580008)

def oklabToCones : Linear where
  row₁ := (0.99999999845051981432, 0.39633779217376785678, 0.21580375806075880339)
  row₂ := (1.0000000088817607767, -0.1055613423236563494, -0.063854174771705903402)
  row₃ := (1.0000000546724109177, -0.089484182094965759684, -1.2914855378640917399)

def conesToXyz : Linear where
  row₁ := (1.2268798733741557, -0.5578149965554813, 0.28139105017721583)
  row₂ := (-0.04057576262431372, 1.1122868293970594, -0.07171106666151701)
  row₃ := (-0.07637294974672142, -0.4214933239627914, 1.5869240244272418)

def xyzToCones : Linear where
  row₁ := (0.8190224432164319, 0.3619062562801221, -0.12887378261216414)
  row₂ := (0.0329836671980271, 0.9292868468965546, 0.03614466816999844)
  row₃ := (0.048177199566046255, 0.26423952494422764, 0.6335478258136937)

def conesToOklab : Linear where
  row₁ := (0.2104542553, 0.7936177850, -0.0040720468)
  row₂ := (1.9779984951, -2.4285922050, 0.4505937099)
  row₃ := (0.0259040371, 0.7827717662, -0.8086757660)

/-! ### Perceptual spaces -/

/-- The reference white of printed matter. -/
def whiteD50 : Components :=
  ⟨0.3457 / 0.3585, 1, (1 - 0.3457 - 0.3585) / 0.3585, 1⟩

def labKappa : Float32 := 24389 / 27

def labEpsilon : Float32 := 216 / 24389

def cube (x : Float32) : Float32 := x * x * x

def labToXyz (c : Components) : Components :=
  let f₁ := (c.a + 16) / 116
  let f₀ := c.b / 500 + f₁
  let f₂ := f₁ - c.c / 200
  let ratio (f : Float32) : Float32 :=
    if labEpsilon < cube f then cube f else (116 * f - 16) / labKappa
  let y := if labKappa * labEpsilon < c.a then cube f₁ else c.a / labKappa
  ⟨ratio f₀ * whiteD50.a, y * whiteD50.b, ratio f₂ * whiteD50.c, c.alpha⟩

def labFromXyz (c : Components) : Components :=
  let f (x : Float32) : Float32 :=
    if labEpsilon < x then Binary32.cubeRoot x else (labKappa * x + 16) / 116
  let f₀ := f (c.a / whiteD50.a)
  let f₁ := f (c.b / whiteD50.b)
  let f₂ := f (c.c / whiteD50.c)
  ⟨116 * f₁ - 16, 500 * (f₀ - f₁), 200 * (f₁ - f₂), c.alpha⟩

def oklabToXyz (c : Components) : Components := conesToXyz.apply ((oklabToCones.apply c).map cube)

def oklabFromXyz (c : Components) : Components :=
  conesToOklab.apply ((xyzToCones.apply c).map Binary32.cubeRoot)

def halfTurn : Float32 := Float32.ofBits 0x40490fdb

/-- Lightness, chroma and hue as lightness and two opponent axes. -/
def polarToRectangular (c : Components) : Components :=
  ⟨c.a, c.b * (c.c * halfTurn / 180).cos, c.b * (c.c * halfTurn / 180).sin, c.alpha⟩

/-- Lightness and two opponent axes as lightness, chroma and hue. -/
def rectangularToPolar (c : Components) : Components :=
  let h := Binary32.polarAngle c.c c.b * 180 / halfTurn
  let h := if h < 0 then h + 360 else h
  ⟨c.a, (c.b * c.b + c.c * c.c).sqrt, Binary32.remainder h 360, c.alpha⟩

/-! ### Hue, saturation, lightness -/

/-- One channel of a pure hue, by its place on a wheel of three. -/
def hueChannel (m₁ m₂ h : Float32) : Float32 :=
  let h := if h < 0 then h + 3 else h
  let h := if 3 < h then h - 3 else h
  if h * 2 < 1 then m₁ + (m₂ - m₁) * h * 2
  else if h * 2 < 3 then m₂
  else if h < 2 then m₁ + (m₂ - m₁) * (2 - h) * 2
  else m₁

/-- Saturation and lightness count from zero to a hundred. -/
def hslToSrgb (c : Components) : Components :=
  let h := (c.a - 360 * Binary32.floor (c.a / 360)) / 360
  let s := c.b / 100
  let l := c.c / 100
  let m₂ := if l ≤ 0.5 then l * (s + 1) else l + s - l * s
  let m₁ := l * 2 - m₂
  let h := h * 3
  ⟨hueChannel m₁ m₂ (h + 1), hueChannel m₁ m₂ h, hueChannel m₁ m₂ (h - 1), c.alpha⟩

/-- The greatest of the channels. -/
def greatest (c : Components) : Float32 := Binary32.max (Binary32.max c.a c.b) c.c

/-- The least of the channels. -/
def least (c : Components) : Float32 := Binary32.min (Binary32.min c.a c.b) c.c

/-- The hue of a colour in degrees; it is missing from a grey. -/
def hueOf (c : Components) : Float32 :=
  let high := greatest c
  let d := high - least c
  if d == 0 then Binary32.nan
  else if high == c.a then ((c.b - c.c) / d + (if c.b < c.c then 6 else 0)) * 60
  else if high == c.b then ((c.c - c.a) / d + 2) * 60
  else ((c.a - c.b) / d + 4) * 60

def srgbToHsl (c : Components) : Components :=
  let high := greatest c
  let low := least c
  let l := (low + high) / 2
  let s : Float32 :=
    if high - low == 0 || l == 0 || l == 1 then 0 else (high - l) / Binary32.min l (1 - l)
  ⟨hueOf c, s * 100, l * 100, c.alpha⟩

/-- Whiteness and blackness count from zero to a hundred. -/
def hwbToSrgb (c : Components) : Components :=
  let w := c.b / 100
  let k := c.c / 100
  if 1 ≤ w + k then
    let grey := w / (w + k)
    ⟨grey, grey, grey, c.alpha⟩
  else
    let pure := hslToSrgb ⟨c.a, 100, 50, c.alpha⟩
    let x := 1 - w - k
    pure.map fun v => v * x + w

/-- The colour is fitted to the screen before its hue is taken. -/
def srgbToHwb (fit : Components → Components) (c : Components) : Components :=
  ⟨hueOf (fit c), least c * 100, (1 - greatest c) * 100, c.alpha⟩

/-! ### The tree of spaces -/

namespace Space

/-- The space that a space is converted through. -/
def parent? : Space → Option Space
  | xyzD65 => none
  | srgb => some srgbLinear
  | srgbLinear | displayP3 | a98 | rec2020 | xyzD50 | oklab => some xyzD65
  | proPhoto | lab => some xyzD50
  | lch => some lab
  | oklch => some oklab
  | hsl | hwb => some srgb

/-- A space and the spaces above it, without the root; no space is deeper than four steps. -/
def ascent (s : Space) : List Space :=
  let rec go : Nat → Space → List Space
    | 0, _ => []
    | n + 1, s =>
      match s.parent? with
      | some p => s :: go n p
      | none => []
  go 4 s

/-- Conversion into the parent. -/
def up (s : Space) (c : Components) : Components :=
  let c := c.resolved
  match s with
  | srgb => c.map srgbToLinear
  | srgbLinear => srgbLinearToXyz.apply c
  | displayP3 => displayP3ToXyz.apply (c.map srgbToLinear)
  | a98 => a98ToXyz.apply (c.map a98ToLinear)
  | proPhoto => proPhotoToXyz.apply (c.map proPhotoToLinear)
  | rec2020 => rec2020ToXyz.apply (c.map rec2020ToLinear)
  | xyzD50 => d50ToD65.apply c
  | xyzD65 => c
  | lab => labToXyz c
  | lch => polarToRectangular c
  | oklab => oklabToXyz c
  | oklch => polarToRectangular c
  | hsl => hslToSrgb c
  | hwb => hwbToSrgb c

/-- Conversion out of the parent, `fit` bringing a colour into the gamut of the screen. -/
def down (fit : Components → Components) (s : Space) (c : Components) : Components :=
  let c := c.resolved
  match s with
  | srgb => c.map srgbFromLinear
  | srgbLinear => srgbLinearFromXyz.apply c
  | displayP3 => (displayP3FromXyz.apply c).map srgbFromLinear
  | a98 => (a98FromXyz.apply c).map a98FromLinear
  | proPhoto => (proPhotoFromXyz.apply c).map proPhotoFromLinear
  | rec2020 => (rec2020FromXyz.apply c).map rec2020FromLinear
  | xyzD50 => d65ToD50.apply c
  | xyzD65 => c
  | lab => labFromXyz c
  | lch => rectangularToPolar c
  | oklab => oklabFromXyz c
  | oklch => rectangularToPolar c
  | hsl => srgbToHsl (fit c)
  | hwb => srgbToHwb fit (fit c)

end Space

namespace SpaceColor

/-- The components of a colour in another space: directly between a space and its parent, and
through the root otherwise. -/
def componentsBy (fit : Components → Components) (color : SpaceColor) (target : Space) :
    Components :=
  let c := color.components
  if color.space = target then c
  else if color.space.parent? = some target then color.space.up c
  else if target.parent? = some color.space then target.down fit c
  else
    let atRoot := color.space.ascent.foldl (fun c s => s.up c) c
    target.ascent.reverse.foldl (fun c s => s.down fit c) atRoot

end SpaceColor

end Css

end SvgDisplayList
