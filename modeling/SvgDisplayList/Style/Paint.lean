import SvgDisplayList.Css.ColorValue
import SvgDisplayList.Text.Blank

/-!
# What a paint property asks for

A paint is nothing, a colour, the current colour, or a paint server named by `url(#id)` with an
optional colour to fall back on.  A value that is none of these is no paint, and the property keeps
what it inherits.
-/

namespace SvgDisplayList

/-- What to paint with, before references are followed. -/
inductive PaintSource where
  | none
  | color (color : AlphaColor)
  | currentColor
  | server (id : String) (fallback : Option Color)

namespace PaintSource

/-- The identifier of a reference `url(#id)` and the trimmed text behind it.  Double quotes are
taken off the target before single quotes are. -/
def reference? (cs : List Char) : Option (String × List Char) :=
  let cs := Text.trim cs
  if Text.lower (cs.take 4) != "url(".toList then Option.none
  else
    match Text.splitAt? (· == ')') (cs.drop 4) with
    | some (target, rest) =>
      match Text.trimBy (· == '\'') (Text.trimBy (· == '"') (Text.trim target)) with
      | '#' :: c :: id => some (String.ofList (c :: id), Text.trim rest)
      | _ => Option.none
    | Option.none => Option.none

/-- The paint that a value denotes. -/
def ofChars? (cs : List Char) : Option PaintSource :=
  let cs := Text.trim cs
  if Text.sameIgnoringCase cs "none".toList then some none
  else if Text.sameIgnoringCase cs "currentcolor".toList then some currentColor
  else
    match reference? cs with
    | some (id, rest) => some (server id ((AlphaColor.ofChars? rest).map AlphaColor.color))
    | Option.none => (AlphaColor.ofChars? cs).map PaintSource.color

end PaintSource

end SvgDisplayList
