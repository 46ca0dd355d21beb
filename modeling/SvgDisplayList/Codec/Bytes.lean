/-!
# Numbers in bytes

Binary formats hold numbers of several bytes, the most significant byte first.  Reading beyond the
end of the bytes gives nothing.
-/

namespace SvgDisplayList

namespace Bytes

/-- The number that bytes make up. -/
def toNat (bytes : List UInt8) : Nat := bytes.foldl (fun n b => 256 * n + b.toNat) 0

/-- A given number of bytes from an offset on. -/
def slice? (bytes : List UInt8) (offset length : Nat) : Option (List UInt8) :=
  let part := (bytes.drop offset).take length
  if offset ≤ bytes.length ∧ part.length = length then some part else none

/-- All bytes from an offset on; the offset may be the end of the bytes. -/
def tail? (bytes : List UInt8) (offset : Nat) : Option (List UInt8) :=
  if offset ≤ bytes.length then some (bytes.drop offset) else none

/-- The number of two bytes at an offset. -/
def word? (bytes : List UInt8) (offset : Nat) : Option Nat := (slice? bytes offset 2).map toNat

/-- The number of four bytes at an offset. -/
def long? (bytes : List UInt8) (offset : Nat) : Option Nat := (slice? bytes offset 4).map toNat

/-- A number of some bits in two's complement. -/
def signed (bits n : Nat) : Int :=
  if n < Nat.pow 2 (bits - 1) then (n : Int) else (n : Int) - (Nat.pow 2 bits : Nat)

/-- The number in two's complement of a byte at an offset. -/
def signedByte? (bytes : List UInt8) (offset : Nat) : Option Int :=
  (slice? bytes offset 1).map fun part => signed 8 (toNat part)

/-- The number in two's complement of two bytes at an offset. -/
def signedWord? (bytes : List UInt8) (offset : Nat) : Option Int :=
  (word? bytes offset).map (signed 16)

/-- The number in two's complement of four bytes at an offset. -/
def signedLong? (bytes : List UInt8) (offset : Nat) : Option Int :=
  (long? bytes offset).map (signed 32)

/-- The numbers of two bytes that bytes list, a last odd byte left out. -/
def words : List UInt8 → List Nat
  | a :: b :: rest => toNat [a, b] :: words rest
  | _ => []

end Bytes

end SvgDisplayList
