import SvgDisplayList.Image.JpegHeaders

/-!
# The samples of JPEG files

Samples stand in blocks of sixty-four coefficients, and a number of blocks that belong to one place
of the image make up a unit.  What the coefficients are does not matter for the size of an image,
but where the samples end does, as the marker behind them is met while bits are fetched ahead of
their use: so the words of the codes are passed over one by one.

Behind a marker, and behind the end of the file, all bits are nought.  A fault of the samples ends
the image and is no fault of the file, for what is missing is grey.

How many bits a block takes may depend on which of its coefficients are known not to be nought.  The
blocks of a component are therefore kept as on a tape, at the block at hand, with blocks of noughts
behind the last one.
-/

namespace SvgDisplayList

namespace Jpeg

/-- Why the samples are not read any further. -/
inductive Halt where
  /-- Nothing that follows counts. -/
  | done
  | faulty (e : Error)
deriving DecidableEq, Repr

/-- Samples being read. -/
structure Samples where
  /-- The bits that have been fetched and not been used. -/
  bits : List Bool := []
  /-- The bytes that have not been fetched. -/
  rest : List UInt8
  /-- The marker that was met while bits were fetched. -/
  marker? : Option Nat := none
  /-- Whether the file has ended. -/
  isAtEnd : Bool := false
  /-- How many units there are up to the next restart. -/
  toRestart : Nat
  /-- How many of the blocks to come have no coefficient in the band that is not known. -/
  emptyBlocks : Nat := 0
  /-- The block at hand and those to come, each by the places of the coefficients that are not
  nought, as the bits of a number. -/
  ahead : List Nat := []
  /-- The blocks passed over, the last one first. -/
  behind : List Nat := []
deriving DecidableEq, Repr

namespace Samples

/-! ### Bits -/

/-- Below how many bits more are fetched. -/
def fetchLimit : Nat := 32

/-- The bits of a byte, the highest one first. -/
def bitsOfByte (b : UInt8) : List Bool := [7, 6, 5, 4, 3, 2, 1, 0].map b.toNat.testBit

/-- Fetches the bits of one byte.  Behind a byte that is 255 a nought is passed over, and any other
byte is a marker. -/
def fetchByte (s : Samples) : Samples :=
  if s.marker?.isSome then s
  else
    match s.rest with
    | [] => { s with isAtEnd := true }
    | b :: rest =>
      let isAtEnd := s.isAtEnd || rest.isEmpty
      let bits := s.bits ++ bitsOfByte b
      if b ≠ 0xff then { s with bits, rest, isAtEnd }
      else
        match rest.dropWhile (· == 0xff) with
        | [] => { s with bits, rest := [], isAtEnd }
        | m :: rest =>
          if m = 0 then { s with bits, rest, isAtEnd } else { s with marker? := some m.toNat, rest }

/-- Whether no more bits are to be fetched. -/
def isDry (s : Samples) : Bool := s.marker?.isSome || s.isAtEnd

/-- Fetches the bits of four bytes if there are too few. -/
def fetch (s : Samples) : Samples :=
  if fetchLimit ≤ s.bits.length || s.isDry then s
  else
    let ahead := s.rest.take 4
    if ahead.length = 4 && !ahead.contains 0xff then
      { s with bits := s.bits ++ ahead.flatMap bitsOfByte, rest := s.rest.drop 4 }
    else s.fetchByte.fetchByte.fetchByte.fetchByte

/-- Whether all bits to come are nought. -/
def isIdle (s : Samples) : Bool := s.bits.isEmpty && s.isDry

/-- Passes over bits. -/
def drop (count : Nat) (s : Samples) : Samples := { s with bits := s.bits.drop count }

/-- The number that the next bits make up, and what follows. -/
def number (count : Nat) (s : Samples) : Nat × Samples :=
  ((List.range count).foldl (fun n i => 2 * n + (s.bits.getD i false).toNat) 0, s.drop count)

/-- The length of the longest words. -/
def longestWord : Nat := 16

/-- The symbol of the next word of a code, and what follows. -/
def symbol (code : PrefixCode) (s : Samples) : Except Halt (Nat × Samples) :=
  let padded := s.bits ++ List.replicate longestWord false
  match code.find padded with
  | .symbol n rest => .ok (n, s.drop (padded.length - rest.length))
  | _ => .error .done

/-! ### Coefficients -/

/-- How many coefficients a block has. -/
def blockSize : Nat := 64

/-- Whether a coefficient of the block at hand is known not to be nought. -/
def isKnown (place : Nat) (s : Samples) : Bool := (s.ahead.headD 0).testBit place

/-- Whether any coefficient of the block at hand is known not to be nought. -/
def hasKnown (s : Samples) : Bool := s.ahead.headD 0 ≠ 0

/-- Makes a coefficient of the block at hand known not to be nought. -/
def learn (place : Nat) (s : Samples) : Samples :=
  { s with ahead := (s.ahead.headD 0 ||| Nat.pow 2 (min place (blockSize - 1))) :: s.ahead.tail }

/-- Goes on to the next block. -/
def nextBlock (s : Samples) : Samples :=
  { s with ahead := s.ahead.tail, behind := s.ahead.headD 0 :: s.behind }

/-- All blocks, first to last. -/
def allBlocks (s : Samples) : List Nat := s.behind.reverse ++ s.ahead

/-! ### Blocks -/

/-- Passes over the coefficients of a block from a place on. -/
def passCoefficients (code : PrefixCode) : (turns place : Nat) → Samples → Except Halt Samples
  | 0, _, s => .ok s
  | turns + 1, place, s => do
    if blockSize ≤ place then return s
    let (n, s) ← s.fetch.symbol code
    let run := n / 16
    let size := n % 16
    if size ≠ 0 then passCoefficients code turns (place + run + 1) (s.drop size)
    else if run ≠ 15 then return s
    else passCoefficients code turns (place + 16) s

/-- Passes over the first coefficient of a block. -/
def passConstant (code : PrefixCode) (s : Samples) : Except Halt Samples := do
  let (size, s) ← s.fetch.symbol code
  return s.drop size

/-- Passes over all coefficients of a block. -/
def passBlock (dc ac : PrefixCode) (s : Samples) : Except Halt Samples := do
  passCoefficients ac blockSize 1 (← s.passConstant dc)

/-- Passes over the bit that is added to the first coefficient of a block. -/
def passBit (s : Samples) : Samples := (if s.bits.isEmpty then s.fetch else s).drop 1

/-- Passes over the coefficients of a block from a place on to the end of a band.  A word may end
the band in a number of blocks at once. -/
def passBand (code : PrefixCode) (bandEnd : Nat) :
    (turns place : Nat) → Samples → Except Halt Samples
  | 0, _, s => .ok s
  | turns + 1, place, s => do
    let (n, s) ← s.fetch.symbol code
    let run := n / 16
    let size := n % 16
    if size = 0 && run ≠ 15 then
      let (extra, s) := s.number run
      return { s with emptyBlocks := Nat.pow 2 run + extra - 1 }
    let s := if size = 0 then s else (s.drop size).learn (place + run)
    let next := place + run + 1
    if bandEnd < next then return s else passBand code bandEnd turns next s

/-! ### Bits added to known coefficients

A later scan of a band adds a bit to each coefficient that is known not to be nought, and brings
others that were nought so far.  The bits for known coefficients stand where these are passed on the
way to the place of a new one. -/

/-- Passes over coefficients from a place on, up to one that is nought and has `run` others that are
nought before it, or to the end of a band.  Returns where that is. -/
def passKnown (bandEnd : Nat) : (turns run place : Nat) → Samples → Nat × Samples
  | 0, _, place, s => (place, s)
  | turns + 1, run, place, s =>
    if s.isKnown place then
      let s := s.drop 1
      let s := if s.bits.isEmpty then s.fetch else s
      if place = bandEnd then (place, s) else passKnown bandEnd turns run (place + 1) s
    else if run = 0 || place = bandEnd then (place, s)
    else passKnown bandEnd turns (run - 1) (place + 1) s

/-- Passes over the words of a block from a place on to the end of a band, as far as they are about
this block alone.  Returns the place behind. -/
def passAddedWords (code : PrefixCode) (bandEnd : Nat) :
    (turns place : Nat) → Samples → Except Halt (Nat × Samples)
  | 0, place, s => .ok (place, s)
  | turns + 1, place, s => do
    let (n, s) ← s.fetch.symbol code
    let run := n / 16
    let size := n % 16
    if size = 0 && run ≠ 15 then
      let (extra, s) := s.number run
      return (place, { s with emptyBlocks := Nat.pow 2 run + extra })
    if 1 < size then throw .done
    let s := s.drop size
    let (place, s) :=
      if place ≤ bandEnd then s.passKnown bandEnd blockSize run place else (place, s)
    let s := if size = 0 then s else s.learn place
    if bandEnd ≤ place then return (place + 1, s)
    else passAddedWords code bandEnd turns (place + 1) s

/-- Passes over the bits for the coefficients from a place on to the end of a band. -/
def passAddedBits (bandEnd : Nat) : (turns place : Nat) → Samples → Samples
  | 0, _, s => s
  | turns + 1, place, s =>
    if bandEnd < place then s
    else
      let s := if s.isKnown place then s.drop 1 else s
      passAddedBits bandEnd turns (place + 1) (if s.bits.isEmpty then s.fetch else s)

/-- Passes over what a later scan has on a block in a band. -/
def passAddedBand (code : PrefixCode) (bandStart bandEnd : Nat) (s : Samples) :
    Except Halt Samples := do
  let (place, s) ←
    if s.emptyBlocks = 0 then s.passAddedWords code bandEnd blockSize bandStart
    else .ok (bandStart, s)
  if s.emptyBlocks = 0 then return s
  let s := if s.hasKnown then s.fetch.passAddedBits bandEnd blockSize place else s
  return { s with emptyBlocks := s.emptyBlocks - 1 }

/-! ### Units -/

/-- Starts afresh if the marker that has been met is one of a restart. -/
def restart (interval : Nat) (s : Samples) : Except Halt Samples :=
  let s :=
    if s.marker?.isSome then s
    else
      match findMarker.run s.rest with
      | .ok (m, rest) => { s with marker? := some m, rest }
      | .error _ => { s with rest := [] }
  match s.marker? with
  | none => .ok { s with toRestart := interval }
  | some m =>
    if isRestartMarker m then
      .ok { rest := s.rest, toRestart := interval, ahead := s.ahead, behind := s.behind }
    else if m = endMarker then .ok { s with toRestart := interval }
    else .error (.faulty (.misplacedMarker (markerName m)))

/-- Counts a unit that has been read. -/
def countUnit (interval : Nat) (s : Samples) : Except Halt Samples :=
  if interval = 0 then .ok s
  else if s.toRestart = 1 then s.restart interval
  else .ok { s with toRestart := s.toRestart - 1 }

/-- Passes over units. -/
def passUnits (interval : Nat) (unit : Samples → Except Halt Samples) :
    (count : Nat) → Samples → Except Halt Samples
  | 0, s => .ok s
  | count + 1, s => do
    let s ← if s.isIdle then .ok s else unit s
    passUnits interval unit count (← s.nextBlock.countUnit interval)

/-- Passes over rows of units, up to a row behind which the rest does not matter. -/
def passRows (interval : Nat) (unit : Samples → Except Halt Samples) (isEnough : Samples → Bool)
    (width : Nat) :
    (height : Nat) → Samples → Except Halt Samples
  | 0, s => .ok s
  | height + 1, s => do
    let s ← s.passUnits interval unit width
    if isEnough s then return s else passRows interval unit isEnough width height s

end Samples

end Jpeg

end SvgDisplayList
