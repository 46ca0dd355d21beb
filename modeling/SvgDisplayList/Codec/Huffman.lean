/-!
# Canonical prefix codes

A canonical code is given by the lengths of its code words alone.  Words of one length are
consecutive numbers in the order of their symbols, and the first word of each length follows the
last one of the length before.  So a word is found bit by bit, by counting how many words of each
length there are.
-/

namespace SvgDisplayList

/-- A canonical code: how many words there are of each length from one on, and the symbols in the
order of their words. -/
structure PrefixCode where
  counts : List Nat
  symbols : Array Nat
deriving DecidableEq, Repr

namespace PrefixCode

/-- The greatest length of a word. -/
def maxLength : Nat := 15

/-- How many symbols have a length. -/
def countOf (lengths : List Nat) (length : Nat) : Nat := (lengths.filter (· == length)).length

/-- The symbols of a length, in order. -/
def symbolsOf (lengths : List Nat) (length : Nat) : List Nat :=
  (lengths.zipIdx.filter (·.1 == length)).map (·.2)

/-- A list without the noughts at its end. -/
def dropLastZeros (counts : List Nat) : List Nat := (counts.reverse.dropWhile (· == 0)).reverse

/-- The code in which each symbol has a word of a given length, or none if the length is nought. -/
def ofLengths (lengths : List Nat) : PrefixCode :=
  let all := (List.range maxLength).map (· + 1)
  ⟨dropLastZeros (all.map (countOf lengths)), (all.flatMap (symbolsOf lengths)).toArray⟩

/-- The share of all texts of bits that start with a given word, in units of the shortest share. -/
def share (length : Nat) : Nat := if length = 0 then 0 else Nat.pow 2 (maxLength - length)

/-- The share of all texts of bits that start with some word. -/
def used (lengths : List Nat) : Nat := lengths.foldl (fun n length => n + share length) 0

/-- Whether every text of bits starts with exactly one word. -/
def isComplete (lengths : List Nat) : Bool := used lengths == Nat.pow 2 maxLength

/-- What comes of looking for a word at the start of a text of bits. -/
inductive Found where
  | symbol (symbol : Nat) (rest : List Bool)
  /-- The bits end inside a word. -/
  | starved
  /-- The bits start with no word. -/
  | nothing

/-- Looks for a word among those longer than the bits read so far, which make up `code`; `first` is
the first word of their length and `index` the place of its symbol. -/
def findFrom (symbols : Array Nat) :
    (counts : List Nat) → (code first index : Nat) → List Bool → Found
  | [], _, _, _, _ => .nothing
  | _ :: _, _, _, _, [] => .starved
  | count :: counts, code, first, index, b :: bits =>
    let code := 2 * code + b.toNat
    let first := 2 * first
    if code < first + count then
      match symbols[index + (code - first)]? with
      | some s => .symbol s bits
      | none => .nothing
    else findFrom symbols counts code (first + count) (index + count) bits

/-- The symbol of the word that a text of bits starts with. -/
def find (c : PrefixCode) (bits : List Bool) : Found := findFrom c.symbols c.counts 0 0 0 bits

end PrefixCode

end SvgDisplayList
