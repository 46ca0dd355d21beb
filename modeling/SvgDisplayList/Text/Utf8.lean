/-!
# UTF-8

Bytes are read as text only when they are well-formed UTF-8: no surrogates, no overlong forms,
nothing beyond the last code point.  The first fault is reported with the number of bytes before it
and the number of bytes that belong to it, unless the text simply ends too early.
-/

namespace SvgDisplayList

namespace Utf8

/-- Why bytes are not UTF-8.  `length?` is absent when the bytes end inside of a character. -/
structure DecodeError where
  index : Nat
  length? : Option Nat
deriving DecidableEq, Repr

def DecodeError.message (e : DecodeError) : String :=
  match e.length? with
  | some n => "invalid utf-8 sequence of " ++ toString n ++ " bytes from index " ++ toString e.index
  | none => "incomplete utf-8 byte sequence from index " ++ toString e.index

/-- The form of a character by its first byte: the number of further bytes and the bounds of the
first of them. -/
def form? (b : UInt8) : Option (Nat × UInt8 × UInt8) :=
  if b < 0x80 then some (0, 0, 0)
  else if b < 0xc2 then none
  else if b < 0xe0 then some (1, 0x80, 0xbf)
  else if b = 0xe0 then some (2, 0xa0, 0xbf)
  else if b = 0xed then some (2, 0x80, 0x9f)
  else if b < 0xf0 then some (2, 0x80, 0xbf)
  else if b = 0xf0 then some (3, 0x90, 0xbf)
  else if b < 0xf4 then some (3, 0x80, 0xbf)
  else if b = 0xf4 then some (3, 0x80, 0x8f)
  else none

/-- The further bytes of a character, `n` of them, the first within bounds.  A fault is the number
of bytes that belong to it, or nothing at the end of the text. -/
def continuation (lo hi : UInt8) :
    (n read : Nat) → (value : Nat) → List UInt8 → Except (Option Nat) (Nat × List UInt8)
  | 0, _, value, rest => .ok (value, rest)
  | _ + 1, _, _, [] => .error none
  | n + 1, read, value, b :: rest =>
    if lo ≤ b && b ≤ hi then
      continuation 0x80 0xbf n (read + 1) (value * 64 + b.toNat % 64) rest
    else .error (some read)

/-- The characters of a text, from a byte index on. -/
def decodeFrom : (turns index : Nat) → List UInt8 → Except DecodeError (List Char)
  | 0, _, _ => .ok []
  | _, _, [] => .ok []
  | turns + 1, index, b :: rest =>
    match form? b with
    | none => .error ⟨index, some 1⟩
    | some (n, lo, hi) =>
      let head := match n with
        | 0 => b.toNat
        | 1 => b.toNat % 32
        | 2 => b.toNat % 16
        | _ => b.toNat % 8
      match continuation lo hi n 1 head rest with
      | .error length? => .error ⟨index, length?⟩
      | .ok (value, rest) => (decodeFrom turns (index + n + 1) rest).map (Char.ofNat value :: ·)

/-- The characters of a text. -/
def decode (bytes : List UInt8) : Except DecodeError (List Char) := decodeFrom bytes.length 0 bytes

end Utf8

end SvgDisplayList
