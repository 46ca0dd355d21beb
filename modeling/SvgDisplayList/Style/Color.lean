import SvgDisplayList.Number.Binary32

/-!
# Colours

A colour has three channels, of which one is the full intensity.  Colours of wide gamuts may lie
outside of the unit cube and are kept as they are; only `toBytes` brings them back.
-/

namespace SvgDisplayList

/-- A colour by its red, green and blue channels. -/
structure Color where
  red : Float32
  green : Float32
  blue : Float32
deriving BEq

namespace Color

def black : Color := ⟨0, 0, 0⟩

/-- The share of the full intensity that a byte stands for. -/
def channelOfByte (n : Nat) : Float32 := Binary32.ofNat n / 255

/-- The colour of three bytes. -/
def ofBytes (red green blue : Nat) : Color :=
  ⟨channelOfByte red, channelOfByte green, channelOfByte blue⟩

/-- The byte nearest to a channel. -/
def byteOfChannel (x : Float32) : Nat := Binary32.roundNat (Binary32.clamp x 0 1 * 255)

/-- The three bytes nearest to a colour. -/
def toBytes (c : Color) : List Nat := [c.red, c.green, c.blue].map byteOfChannel

end Color

/-- A colour that lets a share of what lies behind it through. -/
structure AlphaColor where
  color : Color
  alpha : Float32
deriving BEq

end SvgDisplayList
