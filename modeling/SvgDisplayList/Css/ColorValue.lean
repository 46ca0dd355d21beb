import SvgDisplayList.Css.Calc
import SvgDisplayList.Css.ColorMix
import SvgDisplayList.Css.NamedColor
import SvgDisplayList.Style.Color

/-!
# Colour values

A colour is written as a name, in hexadecimal notation or as a function.  The functions of screens
and hues (`rgb`, `hsl`, `hwb`) give bytes, unless a component is missing; all others keep their
components as they are.  A function may start from another colour, whose channels are then names in
it; `alpha` only gives a colour another alpha value, and `color-mix` and `light-dark` combine two
colours.

A colour that depends on where it is used, such as `currentcolor`, has no channels here.
-/

namespace SvgDisplayList

namespace Css

/-- A colour as its text gives it. -/
inductive ColorValue where
  | bytes (red green blue alpha : Nat)
  | inSpace (color : SpaceColor)
  | contextual
  | lightDark (light dark : ColorValue)

namespace ColorValue

/-- The colour of a pair for light and dark surroundings, which is no pair when both are the
same. -/
def same : ColorValue → ColorValue → Bool
  | bytes r g b a, bytes r' g' b' a' => r == r' && g == g' && b == b' && a == a'
  | inSpace c, inSpace d => c == d
  | contextual, contextual => true
  | lightDark l d, lightDark l' d' => l.same l' && d.same d'
  | _, _ => false

/-- The byte nearest to a share. -/
def byteOfShare (x : Float32) : Nat := Color.byteOfChannel x

/-- A colour of shares as bytes, brought into the gamut first. -/
def ofSrgb (color : SpaceColor) : ColorValue :=
  let c := color.settled.components
  bytes (byteOfShare c.a) (byteOfShare c.b) (byteOfShare c.c) (byteOfShare c.alpha)

/-- The colour in its own space, if it does not depend on where it is used. -/
def toSpaceColor? : ColorValue → Option SpaceColor
  | bytes r g b a =>
    some ⟨.srgb, ⟨Color.channelOfByte r, Color.channelOfByte g, Color.channelOfByte b,
      Color.channelOfByte a⟩⟩
  | inSpace c => some c
  | contextual => none
  | lightDark _ _ => none

/-- A colour of a space, as bytes where the space is one of screens and hues. -/
def ofMixture (color : SpaceColor) : ColorValue :=
  match color.space with
  | .srgb | .hsl | .hwb => ofSrgb (color.convert .srgb)
  | _ => inSpace color

/-- The channels of a colour and its alpha value.  Those of bytes are exact shares; others may lie
outside of the unit cube, and a missing alpha value counts as one. -/
def toAlphaColor? (v : ColorValue) : Option AlphaColor :=
  match v.toSpaceColor? with
  | none => none
  | some color =>
    let c := color.componentsIn .srgb
    let alpha := if c.alpha.isFinite then Binary32.clamp c.alpha 0 1 else 1
    some ⟨⟨c.a, c.b, c.c⟩, alpha⟩

end ColorValue

/-! ### Components -/

/-- The channels of the colour that a function starts from: their names, their values and whether
they are hues. -/
structure Origin where
  channels : List (String × Float32 × Bool)

namespace Origin

/-- The channels of a colour in a space, under the names they have there. -/
def ofColor (names : String × String × String) (s : Space) (c : Components) : Origin :=
  let (first, third) := match s.hue with
    | .none => (false, false)
    | .first => (true, false)
    | .third => (false, true)
  ⟨[(names.1, c.a, first), (names.2.1, c.b, false), (names.2.2, c.c, third),
    ("alpha", c.alpha, false)]⟩

/-- The value of a channel, and whether it is a hue; a hue is only given where an angle is
expected. -/
def find? (o : Origin) (angle : Bool) (name : String) : Option (Float32 × Bool) :=
  (o.channels.find? fun (n, _, isHue) => n == name && (angle || !isHue)).map (·.2)

/-- The channels in an expression: a hue is an angle in degrees, all others are numbers. -/
def names (o : Origin) (dimension : Dimension) : Calc.Names := fun n =>
  (o.find? (dimension = .angle) n).map fun (v, isHue) =>
    if isHue then .measured v .degree else .plain v

end Origin

/-- A component as it is written: a number, or a percentage as a share of one. -/
structure Amount where
  value : Float32
  isShare : Bool

namespace Amount

/-- The number that a component stands for, a percentage being one of a basis. -/
def toNumber (a : Amount) (basis : Float32) : Float32 :=
  if a.isShare then a.value * basis else a.value

end Amount

/-- How components are read: from which colour, if any. -/
structure ComponentRule where
  origin? : Option Origin

namespace ComponentRule

/-- The names that stand for values in an expression of a dimension. -/
def names (rule : ComponentRule) (dimension : Dimension) : Calc.Names :=
  match rule.origin? with
  | some o => o.names dimension
  | none => .empty

/-- A missing component. -/
def missing : Reader Float32 := fun cs =>
  match Reader.keyword "none" cs with
  | some (_, r) => some (Binary32.nan, r)
  | none => none

/-- The value of a channel by its bare name. -/
def channel (rule : ComponentRule) (angle : Bool) : Reader Float32 := fun cs =>
  match rule.origin?, Reader.ident cs with
  | some o, some (n, r) => (o.find? angle n).map fun (v, _) => (v, r)
  | _, _ => none

/-- An expression whose value is a plain number. -/
def calculatedNumber (rule : ComponentRule) : Reader Float32 :=
  Calc.plainNumber (Calc.call .number (rule.names .number))

/-- An expression whose value is a quantity of a dimension, with its unit. -/
def calculated (rule : ComponentRule) (dimension : Dimension) : Reader (Float32 × MeasureUnit) :=
  fun cs =>
  match Calc.call dimension (rule.names dimension) cs with
  | some (.measured v u, r) => some ((v, u), r)
  | _ => none

/-- A percentage as a share of one, written out or as an expression. -/
def percentage (rule : ComponentRule) : Reader Float32 := fun cs =>
  (Reader.percentage cs).or ((rule.calculated .share cs).map fun ((v, _), r) => (v, r))

/-- A number only. -/
def plainNumber (rule : ComponentRule) : Reader Float32 := fun cs =>
  (Reader.number cs).or ((rule.calculatedNumber cs).or (missing cs))

/-- A percentage only, as a share. -/
def share (rule : ComponentRule) : Reader Float32 := fun cs => (rule.percentage cs).or (missing cs)

/-- A number or a percentage. -/
def amount (rule : ComponentRule) : Reader Amount := fun cs =>
  let number := (rule.channel false cs).or <| (Reader.number cs).or (rule.calculatedNumber cs)
  let asNumber (result : Float32 × List Component) : Amount × List Component :=
    (⟨result.1, false⟩, result.2)
  (number.map asNumber).or <|
    ((rule.percentage cs).map fun (v, r) => (⟨v, true⟩, r)).or ((missing cs).map asNumber)

/-- A number, or a percentage of a basis. -/
def numberOrShare (rule : ComponentRule) (basis : Float32) : Reader Float32 := fun cs =>
  (rule.amount cs).map fun (a, r) => (a.toNumber basis, r)

/-- An angle, or a number of degrees. -/
def angle (rule : ComponentRule) : Reader Float32 := fun cs =>
  let literal : Option (Float32 × List Component) := match Reader.next cs with
    | some (.token t, r) =>
      match Quantity.ofToken? .angle t with
      | some (.measured v u) => some (inDegrees v u, r)
      | _ => none
    | _ => none
  (rule.channel true cs).or <| literal.or <| (Reader.number cs).or <|
    (rule.calculatedNumber cs).or <|
    ((rule.calculated .angle cs).map fun ((v, u), r) => (inDegrees v u, r)).or (missing cs)

/-- The alpha value behind a slash; if there is none, that of a colour without one. -/
def alphaOr (rule : ComponentRule) (default : Float32) : Reader Float32 := fun cs =>
  match Reader.slash cs with
  | some (_, r) => (rule.numberOrShare 1 r).map fun (v, r) => (Binary32.clamp v 0 1, r)
  | none => some (default, cs)

/-- The alpha value behind a slash; one if there is none. -/
def alpha (rule : ComponentRule) : Reader Float32 := rule.alphaOr 1

/-- The alpha value behind a comma; one if nothing is left. -/
def legacyAlpha (rule : ComponentRule) : Reader Float32 := fun cs =>
  if Reader.isDone cs then some (1, cs)
  else do
    let (_, r) ← Reader.comma cs
    let (v, r) ← rule.numberOrShare 1 r
    return (Binary32.clamp v 0 1, r)

end ComponentRule

/-- The integer nearest to a number, a half away from zero, held between zero and 255. -/
def byteValue (x : Float32) : Float32 := Binary32.clamp (Binary32.nearestInteger x) 0 255

/-- The number 3.4e38, above which there is none. -/
def largest : Float32 := Float32.ofBits 0x7f7fffff

namespace ColorValue

/-- A colour of the unit cube as bytes, unless a component is missing. -/
def ofShares (c : Components) : ColorValue :=
  if c.a.isNaN || c.b.isNaN || c.c.isNaN || c.alpha.isNaN then inSpace ⟨.srgb, c⟩
  else bytes (byteOfShare c.a) (byteOfShare c.b) (byteOfShare c.c) (byteOfShare c.alpha)

/-- A component of `rgb` as a byte. -/
def byteOfAmount (a : Amount) : Float32 := byteValue (a.toNumber 255)

/-- Commas separate the components of the older notation, which takes no missing ones and never
mixes numbers and percentages. -/
def rgbLegacy (rule : ComponentRule) (red : Amount) : Reader ColorValue := fun cs => do
  let part : Reader Float32 := fun cs =>
    (if red.isShare then rule.share cs else rule.plainNumber cs).map fun (v, r) =>
      (byteOfAmount ⟨v, red.isShare⟩, r)
  let (green, r) ← part cs
  let (_, r) ← Reader.comma r
  let (blue, r) ← part r
  if green.isNaN || blue.isNaN then none
  else
    let (alpha, r) ← rule.legacyAlpha r
    return (ofShares ⟨byteOfAmount red / 255, green / 255, blue / 255, alpha⟩, r)

/-- The arguments of `rgb`. -/
def rgb (rule : ComponentRule) : Reader ColorValue := fun cs => do
  let (red, r) ← rule.amount cs
  let legacy := if rule.origin?.isNone && !red.value.isNaN then Reader.comma r else none
  match legacy with
  | some (_, r) => rgbLegacy rule red r
  | none =>
    let (green, r) ← rule.amount r
    let (blue, r) ← rule.amount r
    let (alpha, r) ← rule.alpha r
    let shares := ⟨byteOfAmount red / 255, byteOfAmount green / 255, byteOfAmount blue / 255, alpha⟩
    return (ofShares shares, r)

/-- The arguments of `hsl` and `hwb`, of which only the former has an older notation. -/
def hueBased (s : Space) (allowsLegacy : Bool) (rule : ComponentRule) : Reader ColorValue :=
  fun cs => do
  let (hue, r) ← rule.angle cs
  let legacy := if allowsLegacy && rule.origin?.isNone && !hue.isNaN then Reader.comma r else none
  let r := match legacy with
    | some (_, r) => r
    | none => r
  let (second, r) ← rule.numberOrShare 100 r
  let (_, r) ← if legacy.isSome then Reader.comma r else some ((), r)
  let (third, r) ← rule.numberOrShare 100 r
  if legacy.isSome && (second.isNaN || third.isNaN) then none
  else
    let (alpha, r) ← if legacy.isSome then rule.legacyAlpha r else rule.alpha r
    let c : Components := ⟨hue, Binary32.clamp second 0 100, Binary32.clamp third 0 100, alpha⟩
    if hue.isNaN || second.isNaN || third.isNaN || alpha.isNaN then return (inSpace ⟨s, c⟩, r)
    else return (ofSrgb (SpaceColor.convert ⟨s, c⟩ .srgb), r)

/-- The arguments of `lab` and `oklab`. -/
def opponent (s : Space) (lightness axis : Float32) (rule : ComponentRule) : Reader ColorValue :=
  fun cs => do
  let (l, r) ← rule.numberOrShare lightness cs
  let (a, r) ← rule.numberOrShare axis r
  let (b, r) ← rule.numberOrShare axis r
  let (alpha, r) ← rule.alpha r
  return (inSpace ⟨s, ⟨Binary32.clamp l 0 largest, a, b, alpha⟩⟩, r)

/-- The arguments of `lch` and `oklch`. -/
def polar (s : Space) (lightness chroma : Float32) (rule : ComponentRule) : Reader ColorValue :=
  fun cs => do
  let (l, r) ← rule.numberOrShare lightness cs
  let (c, r) ← rule.numberOrShare chroma r
  let (h, r) ← rule.angle r
  let (alpha, r) ← rule.alpha r
  return (inSpace ⟨s, ⟨Binary32.clamp l 0 largest, Binary32.clamp c 0 largest, h, alpha⟩⟩, r)

/-- The spaces that `color` names. -/
def predefinedSpace? : String → Option Space
  | "srgb" => some .srgb
  | "srgb-linear" => some .srgbLinear
  | "display-p3" => some .displayP3
  | "a98-rgb" => some .a98
  | "prophoto-rgb" => some .proPhoto
  | "rec2020" => some .rec2020
  | "xyz-d50" => some .xyzD50
  | "xyz" => some .xyzD65
  | "xyz-d65" => some .xyzD65
  | _ => none

/-- The names of the channels of a space. -/
def channelNames : Space → String × String × String
  | .xyzD50 | .xyzD65 => ("x", "y", "z")
  | .lab | .oklab => ("l", "a", "b")
  | .lch | .oklch => ("l", "c", "h")
  | .hsl => ("h", "s", "l")
  | .hwb => ("h", "w", "b")
  | _ => ("r", "g", "b")

/-- The spaces that mixtures can be made in. -/
def mixtureSpace? : String → Option Space
  | "srgb" => some .srgb
  | "srgb-linear" => some .srgbLinear
  | "lab" => some .lab
  | "oklab" => some .oklab
  | "xyz" => some .xyzD65
  | "xyz-d50" => some .xyzD50
  | "xyz-d65" => some .xyzD65
  | "hsl" => some .hsl
  | "hwb" => some .hwb
  | "lch" => some .lch
  | "oklch" => some .oklch
  | _ => none

/-- The hue path that a mixture names, if it names one. -/
def huePath? : Reader HuePath := fun cs => do
  let (n, r) ← Reader.ident cs
  let path ← match n with
    | "shorter" => some HuePath.shorter
    | "longer" => some HuePath.longer
    | "increasing" => some HuePath.increasing
    | "decreasing" => some HuePath.decreasing
    | "specified" => some HuePath.specified
    | _ => none
  let (_, r) ← Reader.keyword "hue" r
  return (path, r)

/-- A mixture of two values; those for light and dark surroundings are mixed one by one. -/
def mix (s : Space) (path : HuePath) (x : ColorValue) (p : Float32) (y : ColorValue) (q : Float32) :
    Option ColorValue :=
  let plain (x y : ColorValue) : Option ColorValue := do
    let a ← x.toSpaceColor?
    let b ← y.toSpaceColor?
    return ofMixture (SpaceColor.mix s path a p b q)
  let halves (v : ColorValue) : ColorValue × ColorValue := match v with
    | lightDark l d => (l, d)
    | v => (v, v)
  match x, y with
  | lightDark _ _, _ | _, lightDark _ _ => do
    let l ← plain (halves x).1 (halves y).1
    let d ← plain (halves x).2 (halves y).2
    return lightDark l d
  | _, _ => plain x y

/-- Reads `light` and `dark` from one list with different origins, and pairs the results. -/
def paired (reader : Option Origin → Reader ColorValue) (light dark : Origin) : Reader ColorValue :=
  fun cs => do
  let (l, r) ← reader (some light) cs
  let (d, _) ← reader (some dark) cs
  return (lightDark l d, r)

/-- Reads the arguments of a function that may start from another colour, `origin?` giving the
channels of that colour. -/
def relative (color : Reader ColorValue) (originOf : ColorValue → Option Origin)
    (reader : ComponentRule → Reader ColorValue) : Reader ColorValue := fun cs =>
  match Reader.keyword "from" cs with
  | none => reader ⟨none⟩ cs
  | some (_, r) => do
    let (origin, r) ← color r
    match origin with
    | lightDark l d =>
      let l ← originOf l
      let d ← originOf d
      paired (fun o => reader ⟨o⟩) l d r
    | v =>
      let o ← originOf v
      reader ⟨some o⟩ r

/-- The channels of a colour in a space, brought into its gamut. -/
def originIn (s : Space) (v : ColorValue) : Option Origin :=
  v.toSpaceColor?.map fun c => Origin.ofColor (channelNames s) s (c.convert s).settled.components

/-- The channels of a colour as numbers up to 255. -/
def originRgb (v : ColorValue) : Option Origin :=
  v.toSpaceColor?.map fun c =>
    Origin.ofColor ("r", "g", "b") .srgb ((c.convert .srgb).settled.components.map (· * 255))

/-- The channels of a colour in a polar space, its hue between nothing and a full turn. -/
def originPolar (s : Space) (v : ColorValue) : Option Origin :=
  v.toSpaceColor?.map fun c =>
    let c := (c.convert s).settled.components
    let hue := Binary32.remainder c.c 360
    Origin.ofColor (channelNames s) s { c with c := if hue < 0 then hue + 360 else hue }

/-- The channels of a colour in a space, without regard to its gamut. -/
def originUnbounded (s : Space) (v : ColorValue) : Option Origin :=
  v.toSpaceColor?.map fun c => Origin.ofColor (channelNames s) s (c.componentsIn s).resolved

/-- Three components and an alpha value of a space. -/
def predefinedParts (s : Space) (rule : ComponentRule) : Reader ColorValue := fun cs => do
  let (a, r) ← rule.numberOrShare 1 cs
  let (b, r) ← rule.numberOrShare 1 r
  let (c, r) ← rule.numberOrShare 1 r
  let (alpha, r) ← rule.alpha r
  return (inSpace ⟨s, ⟨a, b, c, alpha⟩⟩, r)

/-- The arguments of `color`: perhaps a colour to start from, a space, and components. -/
def predefined (color : Reader ColorValue) : Reader ColorValue := fun cs => do
  let (origin?, r) ← match Reader.keyword "from" cs with
    | none => some (none, cs)
    | some (_, r) => (color r).map fun (v, r) => (some v, r)
  let (n, r) ← Reader.ident r
  let s ← predefinedSpace? n
  match origin? with
  | none => predefinedParts s ⟨none⟩ r
  | some (lightDark l d) =>
    let l ← originUnbounded s l
    let d ← originUnbounded s d
    paired (fun o => predefinedParts s ⟨o⟩) l d r
  | some v =>
    let o ← originUnbounded s v
    predefinedParts s ⟨some o⟩ r

/-- A colour of a mixture with its share, which may stand on either side of it. -/
def mixturePart (color : Reader ColorValue) : Reader (ColorValue × Option Float32) := fun cs =>
  match Reader.percentage cs with
  | some (p, r) => (color r).map fun (v, r) => ((v, some p), r)
  | none => do
    let (v, r) ← color cs
    match Reader.percentage r with
    | some (p, r) => return ((v, some p), r)
    | none => return ((v, none), r)

/-- The arguments of `color-mix`. -/
def mixture (color : Reader ColorValue) : Reader ColorValue := fun cs => do
  let (_, r) ← Reader.keyword "in" cs
  let (n, r) ← Reader.ident r
  let s ← mixtureSpace? n
  let hasHue := match s.hue with | .none => false | _ => true
  let (path, r) := if hasHue then (huePath? r).getD (.shorter, r) else (.shorter, r)
  let (_, r) ← Reader.comma r
  let ((x, p?), r) ← mixturePart color r
  let (_, r) ← Reader.comma r
  let ((y, q?), r) ← mixturePart color r
  let (p, q) : Float32 × Float32 := match p?, q? with
    | none, none => (0.5, 0.5)
    | some p, none => (p, 1 - p)
    | none, some q => (1 - q, q)
    | some p, some q => (p, q)
  if p + q == 0 then none
  else return (← mix s path x p y q, r)

/-- The arguments of `light-dark`. -/
def surroundings (color : Reader ColorValue) : Reader ColorValue := fun cs => do
  let (l, r) ← color cs
  let (_, r) ← Reader.comma r
  let (d, r) ← color r
  let l := match l with | lightDark l _ => l | l => l
  let d := match d with | lightDark _ d => d | d => d
  return (if l.same d then l else lightDark l d, r)

/-- A colour with the alpha value that stands behind it, in which the name `alpha` stands for its
own. -/
def withAlpha (v : ColorValue) : Reader ColorValue := fun cs => do
  let color ← v.toSpaceColor?
  let own := color.components.alpha
  let (alpha, r) ← ComponentRule.alphaOr ⟨some ⟨[("alpha", Components.orZero own, false)]⟩⟩ own cs
  return (inSpace ⟨color.space, { color.components with alpha := alpha }⟩, r)

/-- The arguments of `alpha`. -/
def transparency (color : Reader ColorValue) : Reader ColorValue := fun cs => do
  let (_, r) ← Reader.keyword "from" cs
  let (v, r) ← color r
  match v with
  | lightDark l d =>
    let (light, rest) ← withAlpha l r
    let (dark, _) ← withAlpha d r
    return (lightDark light dark, rest)
  | v => withAlpha v r

/-- The colour of a function, by its name; `color` reads the colours in its arguments. -/
def function? (color : Reader ColorValue) (name : String) : Option (Reader ColorValue) :=
  match name with
  | "rgb" | "rgba" => some (relative color originRgb rgb)
  | "hsl" | "hsla" => some (relative color (originIn .hsl) (hueBased .hsl true))
  | "hwb" => some (relative color (originIn .hwb) (hueBased .hwb false))
  | "lab" => some (relative color (originIn .lab) (opponent .lab 100 125))
  | "oklab" => some (relative color (originIn .oklab) (opponent .oklab 1 0.4))
  | "lch" => some (relative color (originPolar .lch) (polar .lch 100 150))
  | "oklch" => some (relative color (originPolar .oklch) (polar .oklch 1 0.4))
  | "color" => some (predefined color)
  | "alpha" => some (transparency color)
  | "color-mix" => some (mixture color)
  | "light-dark" => some (surroundings color)
  | _ => none

/-! ### Hexadecimal notation and names -/

/-- The bytes of a colour in hexadecimal notation: one or two digits for each channel, and perhaps
for alpha. -/
def ofHash? (digits : List Char) : Option ColorValue :=
  match digits.mapM hexDigit? with
  | some [r, g, b] => some (bytes (r * 17) (g * 17) (b * 17) 255)
  | some [r, g, b, a] => some (bytes (r * 17) (g * 17) (b * 17) (a * 17))
  | some [r, r', g, g', b, b'] => some (bytes (r * 16 + r') (g * 16 + g') (b * 16 + b') 255)
  | some [r, r', g, g', b, b', a, a'] =>
    some (bytes (r * 16 + r') (g * 16 + g') (b * 16 + b') (a * 16 + a'))
  | _ => none

/-- The names of colours that the surroundings decide. -/
def systemColors : List String :=
  ["accentcolor", "accentcolortext", "activetext", "buttonborder", "buttonface", "buttontext",
   "canvas", "canvastext", "field", "fieldtext", "graytext", "highlight", "highlighttext",
   "linktext", "mark", "marktext", "selecteditem", "selecteditemtext", "visitedtext",
   "activeborder", "activecaption", "appworkspace", "background", "buttonhighlight", "buttonshadow",
   "captiontext", "inactiveborder", "inactivecaption", "inactivecaptiontext", "infobackground",
   "infotext", "menu", "menutext", "scrollbar", "threeddarkshadow", "threedface", "threedhighlight",
   "threedlightshadow", "threedshadow", "window", "windowframe", "windowtext"]

/-- The colour of a name in lower case. -/
def ofName? (name : String) : Option ColorValue :=
  if name = "currentcolor" then some contextual
  else if name = "transparent" then some (bytes 0 0 0 0)
  else
    match namedColor? name with
    | some (r, g, b) => some (bytes r g b 255)
    | none => if systemColors.contains name then some contextual else none

/-- Reads a colour; `depth` bounds how deeply it nests. -/
def read : (depth : Nat) → Reader ColorValue
  | 0, _ => none
  | depth + 1, cs =>
    match Reader.next cs with
    | some (.token (.hash digits), r) => (ofHash? digits.toList).map fun v => (v, r)
    | some (.token (.ident n), r) => (ofName? (Reader.lowered n)).map fun v => (v, r)
    | some (.call name arguments, r) => do
      let reader ← function? (read depth) (Reader.lowered name)
      let v ← Reader.all reader arguments
      return (v, r)
    | _ => none

/-- The colour that makes up all of a text. -/
def ofChars? (cs : List Char) : Option ColorValue :=
  let components := components cs
  Reader.all (read (Component.depths components + 1)) components

end ColorValue

end Css

/-- The colour that a text denotes.  The words `none` and `currentcolor` denote no colour of their
own. -/
def AlphaColor.ofChars? (cs : List Char) : Option AlphaColor :=
  match Css.ColorValue.ofChars? cs with
  | some v => v.toAlphaColor?
  | none => none

end SvgDisplayList
