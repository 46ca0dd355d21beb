import SvgDisplayList.Codec.Huffman

/-!
# Inflating

A compressed stream is a header, a sequence of blocks and a checksum, which is not compared.  A
block holds plain bytes, or symbols in prefix codes that are fixed or come first.  A symbol is a
byte, the end of the block, or a length with which a distance follows: so many bytes are repeated
from so far back.

A stream may be cut off anywhere.  All the bytes that it yields up to there are known then, and it
is said to be starved.  Nor need all of its bytes be wanted: where there are as many as are wanted,
no more symbols are read.
-/

namespace SvgDisplayList

namespace Inflate

/-- What can be wrong with a compressed stream. -/
inductive Fault where
  | badZlibHeader
  | insufficientInput
  | invalidBlockType
  | invalidUncompressedBlockLength
  | invalidHlit
  | invalidHdist
  | invalidCodeLengthRepeat
  | badCodeLengthHuffmanTree
  | badLiteralLengthHuffmanTree
  | badDistanceHuffmanTree
  | invalidLiteralLengthCode
  | invalidDistanceCode
  | distanceTooFarBack
deriving DecidableEq, Repr

namespace Fault

def name : Fault → String
  | badZlibHeader => "BadZlibHeader"
  | insufficientInput => "InsufficientInput"
  | invalidBlockType => "InvalidBlockType"
  | invalidUncompressedBlockLength => "InvalidUncompressedBlockLength"
  | invalidHlit => "InvalidHlit"
  | invalidHdist => "InvalidHdist"
  | invalidCodeLengthRepeat => "InvalidCodeLengthRepeat"
  | badCodeLengthHuffmanTree => "BadCodeLengthHuffmanTree"
  | badLiteralLengthHuffmanTree => "BadLiteralLengthHuffmanTree"
  | badDistanceHuffmanTree => "BadDistanceHuffmanTree"
  | invalidLiteralLengthCode => "InvalidLiteralLengthCode"
  | invalidDistanceCode => "InvalidDistanceCode"
  | distanceTooFarBack => "DistanceTooFarBack"

end Fault

/-- Why reading stops. -/
inductive Stop where
  | finished
  | starved
  /-- There are as many bytes as are wanted. -/
  | full
  | faulty (fault : Fault)
deriving DecidableEq, Repr

/-! ### Bits -/

/-- The bits of a number, the lowest one first. -/
def bitsOfNat (n : Nat) : (count : Nat) → List Bool
  | 0 => []
  | count + 1 => (n % 2 == 1) :: bitsOfNat (n / 2) count

/-- The bits of a text of bytes. -/
def bitsOf (bytes : List UInt8) : List Bool := bytes.flatMap fun b => bitsOfNat b.toNat 8

/-- The number of the next bits, the lowest one first. -/
def number : (count : Nat) → List Bool → Except Stop (Nat × List Bool)
  | 0, bits => .ok (0, bits)
  | _ + 1, [] => .error .starved
  | count + 1, b :: bits => (number count bits).map fun (n, rest) => (2 * n + b.toNat, rest)

/-- Whether there are at least so many bits. -/
def hasBits (count : Nat) (bits : List Bool) : Bool := (bits.take count).length == count

/-- The next symbol of a code. -/
def symbol (code : PrefixCode) (fault : Fault) (bits : List Bool) : Except Stop (Nat × List Bool) :=
  match code.find bits with
  | .symbol s rest => .ok (s, rest)
  | .starved => .error .starved
  | .nothing => .error (.faulty fault)

/-- The bits from the next whole byte on. -/
def aligned (bits : List Bool) : List Bool := bits.drop (bits.length % 8)

/-! ### Symbols -/

/-- The least length of each length symbol, and how many bits are added to it. -/
def lengthTable : List (Nat × Nat) :=
  [(3, 0), (4, 0), (5, 0), (6, 0), (7, 0), (8, 0), (9, 0), (10, 0), (11, 1), (13, 1), (15, 1),
   (17, 1), (19, 2), (23, 2), (27, 2), (31, 2), (35, 3), (43, 3), (51, 3), (59, 3), (67, 4),
   (83, 4), (99, 4), (115, 4), (131, 5), (163, 5), (195, 5), (227, 5), (258, 0)]

/-- The least distance of each distance symbol, and how many bits are added to it. -/
def distanceTable : List (Nat × Nat) :=
  [(1, 0), (2, 0), (3, 0), (4, 0), (5, 1), (7, 1), (9, 2), (13, 2), (17, 3), (25, 3), (33, 4),
   (49, 4), (65, 5), (97, 5), (129, 6), (193, 6), (257, 7), (385, 7), (513, 8), (769, 8), (1025, 9),
   (1537, 9), (2049, 10), (3073, 10), (4097, 11), (6145, 11), (8193, 12), (12289, 12), (16385, 13),
   (24577, 13)]

/-- The codes of a block. -/
structure BlockCodes where
  literals : PrefixCode
  distances : PrefixCode

/-- One symbol of a block with all that belongs to it. -/
inductive Item where
  | byte (b : UInt8)
  | copy (length distance : Nat)
  | finish

/-- How many bits the words have that are looked up at once. -/
def lookupBits : Nat := 9

/-- The next distance.  That there is no such distance is seen only if there are more bits than are
looked up at once. -/
def distance (code : PrefixCode) (bits : List Bool) : Except Stop (Nat × List Bool) :=
  let unknown : Stop :=
    if hasBits (lookupBits + 1) bits then .faulty .invalidDistanceCode else .starved
  match code.find bits with
  | .starved => .error .starved
  | .nothing => .error unknown
  | .symbol s rest =>
    match distanceTable[s]? with
    | none => .error unknown
    | some (base, extra) => (number extra rest).map fun (n, rest) => (base + n, rest)

/-- How many bits two bytes may have that are looked up at once. -/
def pairBits : Nat := 12

/-- Whether a byte is looked up together with another one whose word the bits behind it break off.
Bits that are missing count as nought. -/
def isBrokenPair (code : PrefixCode) (length : Nat) (rest : List Bool) : Bool :=
  !hasBits pairBits rest &&
    let padded := rest ++ List.replicate pairBits false
    match code.find padded with
    | .symbol s behind =>
      let next := padded.length - behind.length
      s < 256 && 2 ≤ next && length + next ≤ pairBits && rest.length < next
    | _ => false

/-- The next item of a block.  Symbols beyond those of lengths end the block, too. -/
def item (codes : BlockCodes) (bits : List Bool) : Except Stop (Item × List Bool) := do
  let (s, rest) ← symbol codes.literals .invalidLiteralLengthCode bits
  if s < 256 then
    if !hasBits (2 * PrefixCode.maxLength) bits &&
        isBrokenPair codes.literals (bits.length - rest.length) rest then
      .error .starved
    else return (.byte (UInt8.ofNat s), rest)
  else if s = 256 then return (.finish, rest)
  else
    match lengthTable[s - 257]? with
    | none => return (.finish, rest)
    | some (base, extra) =>
      let (n, bits) ← number extra rest
      let (d, bits) ← distance codes.distances bits
      return (.copy (base + n) d, bits)

/-- The output with bytes repeated from a distance back. -/
def repeated (distance : Nat) : (length : Nat) → Array UInt8 → Array UInt8
  | 0, output => output
  | length + 1, output =>
    repeated distance length (output.push (output.getD (output.size - distance) 0))

/-- How far a stream has been read: the bytes it yields, and the bits behind what has been read or
why reading stops. -/
structure Progress where
  output : Array UInt8
  next : Except Stop (List Bool)

/-- Reads the items of a block.  Every item takes a bit at least, so the number of bits bounds the
number of turns. -/
def items (codes : BlockCodes) (wanted : Nat) : (turns : Nat) → Array UInt8 → List Bool → Progress
  | 0, output, _ => ⟨output, .error .starved⟩
  | turns + 1, output, bits =>
    if wanted ≤ output.size then ⟨output, .error .full⟩
    else
      match item codes bits with
      | .error stop => ⟨output, .error stop⟩
      | .ok (.finish, bits) => ⟨output, .ok bits⟩
      | .ok (.byte b, bits) => items codes wanted turns (output.push b) bits
      | .ok (.copy length distance, bits) =>
        if output.size < distance then ⟨output, .error (.faulty .distanceTooFarBack)⟩
        else
          let output := repeated distance (min length (wanted - output.size)) output
          items codes wanted turns output bits

/-! ### Codes -/

/-- The codes of blocks that bring none. -/
def fixedCodes : BlockCodes where
  literals := .ofLengths
    (List.replicate 144 8 ++ List.replicate 112 9 ++ List.replicate 24 7 ++ List.replicate 8 8)
  distances := .ofLengths (List.replicate 32 5)

/-- The order in which the lengths of the words for lengths are given. -/
def lengthOrder : List Nat := [16, 17, 18, 0, 8, 7, 9, 6, 10, 5, 11, 4, 12, 3, 13, 2, 14, 1, 15]

/-- A number of numbers of three bits each. -/
def triples : (count : Nat) → List Bool → Except Stop (List Nat × List Bool)
  | 0, bits => .ok ([], bits)
  | count + 1, bits => do
    let (n, bits) ← number 3 bits
    let (ns, bits) ← triples count bits
    return (n :: ns, bits)

/-- How a symbol of the code of lengths continues the lengths: so many times a length. -/
def run (s : Nat) (last? : Option Nat) (bits : List Bool) : Except Stop ((Nat × Nat) × List Bool) :=
  if s < 16 then .ok ((1, s), bits)
  else if s = 16 then do
    let (n, rest) ← number 2 bits
    match last? with
    | none => .error (.faulty .invalidCodeLengthRepeat)
    | some l => return ((3 + n, l), rest)
  else if s = 17 then (number 3 bits).map fun (n, rest) => ((3 + n, 0), rest)
  else (number 7 bits).map fun (n, rest) => ((11 + n, 0), rest)

/-- The length of the longest words for lengths. -/
def longestLengthWord : Nat := 7

/-- Reads lengths of words up to a total number, given in reverse those that are known. -/
def wordLengths (code : PrefixCode) (total : Nat) :
    (turns : Nat) → List Nat → List Bool → Except Stop (List Nat × List Bool)
  | 0, _, _ => .error .starved
  | turns + 1, known, bits => do
    if known.length = total then return (known.reverse, bits)
    if !hasBits longestLengthWord bits then .error .starved
    let (s, bits) ← symbol code .badCodeLengthHuffmanTree bits
    let ((times, length), bits) ← run s known.head? bits
    if total < known.length + times then .error (.faulty .invalidCodeLengthRepeat)
    else wordLengths code total turns (List.replicate times length ++ known) bits

/-- Whether lengths make up a code of distances: a complete one, or one with a single word, or one
without any. -/
def isDistanceCode (lengths : List Nat) : Bool :=
  PrefixCode.isComplete lengths ||
    match lengths.filter (· != 0) with
    | [] => true
    | [l] => l == 1
    | _ => false

/-- The codes at the start of a block. -/
def readCodes (bits : List Bool) : Except Stop (BlockCodes × List Bool) := do
  let (hlit, bits) ← number 5 bits
  let (hdist, bits) ← number 5 bits
  let (hclen, bits) ← number 4 bits
  if 29 < hlit then .error (.faulty .invalidHlit)
  else if 29 < hdist then .error (.faulty .invalidHdist)
  else
    let (given, bits) ← triples (hclen + 4) bits
    let lengths := (List.range 19).map fun s => ((lengthOrder.zip given).lookup s).getD 0
    if !PrefixCode.isComplete lengths then .error (.faulty .badCodeLengthHuffmanTree)
    else
      let total := hlit + 257 + (hdist + 1)
      let (all, bits) ← wordLengths (.ofLengths lengths) total (total + 1) [] bits
      let literals := all.take (hlit + 257)
      let distances := all.drop (hlit + 257)
      if literals.getD 256 0 = 0 then .error (.faulty .badLiteralLengthHuffmanTree)
      else if !PrefixCode.isComplete literals then .error (.faulty .badCodeLengthHuffmanTree)
      else if !isDistanceCode distances then .error (.faulty .badDistanceHuffmanTree)
      else return (⟨.ofLengths literals, .ofLengths distances⟩, bits)

/-! ### Blocks -/

/-- Reads plain bytes. -/
def plain (wanted : Nat) : (count : Nat) → Array UInt8 → List Bool → Progress
  | 0, output, bits => ⟨output, .ok bits⟩
  | count + 1, output, bits =>
    if wanted ≤ output.size then ⟨output, .error .full⟩
    else
      match number 8 bits with
      | .error stop => ⟨output, .error stop⟩
      | .ok (b, bits) => plain wanted count (output.push (UInt8.ofNat b)) bits

/-- The length of a block of plain bytes, which is given twice, once with all its bits turned. -/
def plainLength (bits : List Bool) : Except Stop (Nat × List Bool) := do
  let (length, bits) ← number 16 (aligned bits)
  let (turned, bits) ← number 16 bits
  if length + turned = 0xffff then return (length, bits)
  else .error (.faulty .invalidUncompressedBlockLength)

/-- Reads a block of a type. -/
def block (wanted type : Nat) (output : Array UInt8) (bits : List Bool) : Progress :=
  match type with
  | 0 =>
    match plainLength bits with
    | .error stop => ⟨output, .error stop⟩
    | .ok (length, bits) => plain wanted length output bits
  | 1 => items fixedCodes wanted (bits.length + 1) output bits
  | 2 =>
    match readCodes bits with
    | .error stop => ⟨output, .error stop⟩
    | .ok (codes, bits) => items codes wanted (bits.length + 1) output bits
  | _ => ⟨output, .error (.faulty .invalidBlockType)⟩

/-- How many bits the shortest block has. -/
def shortestBlock : Nat := 10

/-- The start of a block: whether it is the last one, and its type. -/
def blockHead (bits : List Bool) : Except Stop (Bool × Nat × List Bool) := do
  if !hasBits shortestBlock bits then .error .starved
  let (last, bits) ← number 1 bits
  let (type, bits) ← number 2 bits
  return (last = 1, type, bits)

/-- Reads blocks up to the last one. -/
def blocks (wanted : Nat) : (turns : Nat) → Array UInt8 → List Bool → Progress
  | 0, output, _ => ⟨output, .error .starved⟩
  | turns + 1, output, bits =>
    match blockHead bits with
    | .error stop => ⟨output, .error stop⟩
    | .ok (last, type, bits) =>
      match block wanted type output bits with
      | ⟨output, .error stop⟩ => ⟨output, .error stop⟩
      | ⟨output, .ok bits⟩ => if last then ⟨output, .ok bits⟩ else blocks wanted turns output bits

/-! ### Streams -/

/-- The bytes that a stream yields, and why reading it stops. -/
structure Inflated where
  output : Array UInt8
  stop : Stop

/-- Whether two bytes are the header of a stream: they name the method and a window that is not too
large, ask for no dictionary, and make up a multiple of thirty-one. -/
def isHeader (a b : UInt8) : Bool :=
  a.toNat % 16 == 8 && a.toNat / 16 ≤ 7 && !b.toNat.testBit 5 && (256 * a.toNat + b.toNat) % 31 == 0

/-- Whether there is room for the checksum behind the last block. -/
def ending (bits : List Bool) : Stop := if 32 ≤ (aligned bits).length then .finished else .starved

/-- Inflates a stream as far as it goes and its bytes are wanted. -/
def stream (wanted : Nat) (data : List UInt8) : Inflated :=
  match data with
  | a :: b :: rest =>
    if !isHeader a b then ⟨#[], .faulty .badZlibHeader⟩
    else
      let bits := bitsOf rest
      match blocks wanted (bits.length + 1) #[] bits with
      | ⟨output, .error stop⟩ => ⟨output, stop⟩
      | ⟨output, .ok bits⟩ => ⟨output, ending bits⟩
  | _ => ⟨#[], .starved⟩

end Inflate

end SvgDisplayList
