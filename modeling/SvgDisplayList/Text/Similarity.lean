/-!
# Similar words

Two words are alike when they share most of their characters in about the same places.  The
*matches* of two words are pairs of equal characters that lie close together, each character in one
pair at most; two matched characters are *transposed* when they come in another order.  The likeness
of two words is the mean of three shares: of the matches in the one word, of the matches in the
other, and of the matches that are not transposed among all.
-/

namespace SvgDisplayList

namespace Text

/-- How far apart two matched characters may lie. -/
def matchReach (a b : List Char) : Nat := max a.length b.length / 2 - 1

/-- The place in a word of the first free character that matches a given one. -/
def matchPlace? (b : List Char) (reach : Nat) (taken : List Nat) (i : Nat) (c : Char) :
    Option Nat :=
  (b.zipIdx.find? fun (d, j) =>
    i ≤ j + reach && j ≤ i + reach && c == d && !taken.contains j).map (·.2)

/-- The matches of two words, as pairs of places; those of the first word ascend. -/
def matchPlaces (a b : List Char) : List (Nat × Nat) :=
  let found := a.zipIdx.foldl
    (fun found (c, i) =>
      match matchPlace? b (matchReach a b) (found.map (·.2)) i c with
      | some j => (i, j) :: found
      | none => found)
    []
  found.reverse

/-- Whether the likeness of two words is more than seven tenths. -/
def areAlike (a b : List Char) : Bool :=
  let places := matchPlaces a b
  let m := places.length
  let first := places.filterMap fun (i, _) => a[i]?
  let second := (b.zipIdx.filter fun (_, j) => places.any (·.2 == j)).map (·.1)
  let transposed := ((first.zip second).filter fun (c, d) => c != d).length / 2
  0 < m && 21 * (a.length * b.length * m) <
    10 * (m * m * b.length + m * m * a.length + (m - transposed) * (a.length * b.length))

end Text

end SvgDisplayList
