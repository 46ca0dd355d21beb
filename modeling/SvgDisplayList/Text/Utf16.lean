/-!
# UTF-16

A character is one unit of sixteen bits or a pair of surrogates, of which the first one is high and
the second one low.  A surrogate without its partner makes the whole text invalid.
-/

namespace SvgDisplayList

namespace Text.Utf16

/-- Whether a unit opens a pair. -/
def isHigh (u : Nat) : Bool := 0xd800 ≤ u && u < 0xdc00

/-- Whether a unit closes a pair. -/
def isLow (u : Nat) : Bool := 0xdc00 ≤ u && u < 0xe000

/-- The characters of a list of units. -/
def decode : List Nat → Option (List Char)
  | [] => some []
  | [u] => if isHigh u || isLow u then none else some [Char.ofNat u]
  | u :: v :: rest =>
    if isLow u then none
    else if isHigh u then
      if isLow v then
        (decode rest).map (Char.ofNat (0x10000 + (u - 0xd800) * 0x400 + (v - 0xdc00)) :: ·)
      else none
    else (decode (v :: rest)).map (Char.ofNat u :: ·)

end Text.Utf16

end SvgDisplayList
