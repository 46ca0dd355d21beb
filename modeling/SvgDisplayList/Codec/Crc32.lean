/-!
# Cyclic redundancy checks

The remainder of a text of bytes modulo the usual polynomial of degree thirty-two, low bits first.
-/

namespace SvgDisplayList

namespace Crc32

/-- The polynomial, its lowest term in the highest bit. -/
def polynomial : UInt32 := 0xedb88320

/-- The remainder shifted by one bit. -/
def shift (r : UInt32) : UInt32 := if r &&& 1 == 1 then (r >>> 1) ^^^ polynomial else r >>> 1

/-- The remainder shifted by a number of bits. -/
def shifts : Nat → UInt32 → UInt32
  | 0, r => r
  | n + 1, r => shifts n (shift r)

/-- The remainder with one byte more. -/
def add (r : UInt32) (b : UInt8) : UInt32 := shifts 8 (r ^^^ b.toUInt32)

/-- The check of a text of bytes. -/
def ofBytes (bytes : List UInt8) : Nat := ((bytes.foldl add 0xffffffff) ^^^ 0xffffffff).toNat

end Crc32

end SvgDisplayList
