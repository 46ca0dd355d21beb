/-!
# Base64

The standard alphabet with padding, read strictly: every byte sequence has one written form, and
nothing else is accepted.  A fault is reported at the symbol where it shows.

All groups of four symbols but the last are plain.  The last group decides: it may end in padding,
which takes the place of its third and fourth symbol only, and the bits that its padding leaves
unused have to be zero.
-/

namespace SvgDisplayList

namespace Base64

/-- Why a text is not base64. -/
inductive DecodeError where
  | invalidSymbol (symbol : Nat) (offset : Nat)
  | invalidLength (length : Nat)
  | invalidLastSymbol (symbol : Nat) (offset : Nat)
  | invalidPadding
deriving DecidableEq, Repr

namespace DecodeError

def message : DecodeError → String
  | invalidSymbol symbol offset =>
    "Invalid symbol " ++ toString symbol ++ ", offset " ++ toString offset ++ "."
  | invalidLength length => "Invalid input length: " ++ toString length
  | invalidLastSymbol symbol offset =>
    "Invalid last symbol " ++ toString symbol ++ ", offset " ++ toString offset ++ "."
  | invalidPadding => "Invalid padding"

end DecodeError

/-- The six bits that a symbol stands for. -/
def sextet? (b : UInt8) : Option Nat :=
  let n := b.toNat
  if 65 ≤ n && n ≤ 90 then some (n - 65)
  else if 97 ≤ n && n ≤ 122 then some (n - 71)
  else if 48 ≤ n && n ≤ 57 then some (n + 4)
  else if n = 43 then some 62
  else if n = 47 then some 63
  else none

/-- The symbol of six bits. -/
def symbol (n : Nat) : UInt8 :=
  UInt8.ofNat (
    if n < 26 then n + 65
    else if n < 52 then n + 71
    else if n < 62 then n - 4
    else if n = 62 then 43
    else 47)

/-- The padding symbol. -/
def pad : UInt8 := 61

/-! ### Encoding -/

/-- The written form of a byte sequence. -/
def encode : List UInt8 → List UInt8
  | [] => []
  | [a] =>
    [symbol (a.toNat / 4), symbol (a.toNat % 4 * 16), pad, pad]
  | [a, b] =>
    [symbol (a.toNat / 4), symbol (a.toNat % 4 * 16 + b.toNat / 16), symbol (b.toNat % 16 * 4), pad]
  | a :: b :: c :: rest =>
    symbol (a.toNat / 4) :: symbol (a.toNat % 4 * 16 + b.toNat / 16) ::
      symbol (b.toNat % 16 * 4 + c.toNat / 64) :: symbol (c.toNat % 64) :: encode rest

/-! ### Decoding -/

/-- The bytes of a full group of sextets. -/
def bytesOf (a b c d : Nat) : List UInt8 :=
  [UInt8.ofNat (a * 4 + b / 16), UInt8.ofNat (b % 16 * 16 + c / 4), UInt8.ofNat (c % 4 * 64 + d)]

/-- The sextet of the symbol at an offset. -/
def sextetAt (b : UInt8) (offset : Nat) : Except DecodeError Nat :=
  match sextet? b with
  | some n => .ok n
  | none => .error (.invalidSymbol b.toNat offset)

/-- The symbols of the last group before its padding, and the number of padding symbols.  Padding
stands behind two or three symbols and nothing stands behind it. -/
def lastGroup (start : Nat) :
    (index : Nat) → (firstPad? : Option Nat) → (pads : Nat) → List UInt8 →
      Except DecodeError (List Nat × Nat)
  | _, _, pads, [] => .ok ([], pads)
  | index, firstPad?, pads, b :: rest =>
    if b = pad then
      if index < 2 then .error (.invalidSymbol b.toNat (start + index))
      else lastGroup start (index + 1) (some (firstPad?.getD index)) (pads + 1) rest
    else
      match firstPad? with
      | some i => .error (.invalidSymbol pad.toNat (start + i))
      | none =>
        match sextetAt b (start + index) with
        | .error e => .error e
        | .ok n => (lastGroup start (index + 1) none pads rest).map fun (ns, p) => (n :: ns, p)

/-- The bytes of the last group, which starts at an offset. -/
def decodeLast (start : Nat) (group : List UInt8) : Except DecodeError (List UInt8) := do
  let (sextets, pads) ← lastGroup start 0 none 0 group
  let symbolAt (i : Nat) : Nat := (group.getD i 0).toNat
  if sextets.length < 2 then .error (.invalidLength (start + sextets.length))
  else if (sextets.length + pads) % 4 ≠ 0 then .error .invalidPadding
  else
    match sextets with
    | [a, b] =>
      if b % 16 ≠ 0 then .error (.invalidLastSymbol (symbolAt 1) (start + 1))
      else return [UInt8.ofNat (a * 4 + b / 16)]
    | [a, b, c] =>
      if c % 4 ≠ 0 then .error (.invalidLastSymbol (symbolAt 2) (start + 2))
      else return [UInt8.ofNat (a * 4 + b / 16), UInt8.ofNat (b % 16 * 16 + c / 4)]
    | [a, b, c, d] => return bytesOf a b c d
    | _ => .error .invalidPadding

/-- The bytes of the groups from an offset on. -/
def decodeFrom : (start : Nat) → List UInt8 → Except DecodeError (List UInt8)
  | start, a :: b :: c :: d :: e :: rest => do
    let w ← sextetAt a start
    let x ← sextetAt b (start + 1)
    let y ← sextetAt c (start + 2)
    let z ← sextetAt d (start + 3)
    let bytes ← decodeFrom (start + 4) (e :: rest)
    return bytesOf w x y z ++ bytes
  | start, group => decodeLast start group
termination_by _ symbols => symbols.length

/-- The bytes that a text stands for.  A single symbol too many is blamed first, if it is no symbol
at all. -/
def decode (symbols : List UInt8) : Except DecodeError (List UInt8) :=
  match symbols with
  | [] => .ok []
  | _ =>
    match symbols.getLast? with
    | some last =>
      if symbols.length % 4 = 1 ∧ last ≠ pad ∧ sextet? last = none then
        .error (.invalidSymbol last.toNat (symbols.length - 1))
      else decodeFrom 0 symbols
    | none => .ok []

end Base64

end SvgDisplayList
