import SvgDisplayList.Codec.Bytes
import SvgDisplayList.Number.Elementary

/-!
# Metrics of variable fonts

A variable font has axes, and a table that says by how much its metrics differ in the regions of the
space that the axes span.  A face is read at the origin of that space.  There a region either counts
in full or not at all: it does unless it peaks off the origin on some axis and does not span the
origin on it.
-/

namespace SvgDisplayList

namespace Font

/-- The part of an axis that a region covers: where it starts, has its full effect and ends. -/
structure AxisRegion where
  first : Int
  peak : Int
  last : Int
deriving DecidableEq, Repr

namespace AxisRegion

/-- Whether the origin of the axis is covered.  What is out of order covers everything. -/
def coversOrigin (r : AxisRegion) : Bool :=
  r.peak < r.first || r.last < r.peak || (r.first < 0 && 0 < r.last) || r.peak == 0

end AxisRegion

/-- The differences that a font holds for the regions of its space. -/
structure VariationStore where
  /-- The bytes of the store, which its offsets count from. -/
  bytes : List UInt8
  /-- The offsets of the groups of rows. -/
  groups : List Nat
  axisCount : Nat
  /-- For each region, the part that it covers of each axis. -/
  regions : List AxisRegion

/-- The differences of the metrics of a variable font. -/
structure MetricsVariation where
  /-- The number of axes of the font. -/
  axes : Nat
  /-- For each metric, by its tag, the group and the row that hold its differences. -/
  entries : List (Nat × Nat × Nat)
  store : VariationStore

/-! ### Reading the tables -/

/-- The largest number of axes that are looked at. -/
def maximalAxes : Nat := 64

/-- The number of axes, which is not zero. -/
def axisCount? (fvar : List UInt8) : Option Nat := do
  if (← Bytes.long? fvar 0) ≠ 0x00010000 then none
  let offset ← Bytes.word? fvar 4
  let count ← Bytes.word? fvar 8
  if count = 0 then none
  let _ ← Bytes.slice? fvar offset (20 * count)
  return count

/-- The part of an axis at an offset. -/
def axisRegion? (bytes : List UInt8) (offset : Nat) : Option AxisRegion := do
  return ⟨← Bytes.signedWord? bytes offset, ← Bytes.signedWord? bytes (offset + 2),
    ← Bytes.signedWord? bytes (offset + 4)⟩

/-- The store that bytes start with. -/
def VariationStore.ofBytes? (bytes : List UInt8) : Option VariationStore := do
  if (← Bytes.word? bytes 0) ≠ 1 then none
  let offset ← Bytes.long? bytes 2
  let count ← Bytes.word? bytes 6
  let groups ← (List.range count).mapM fun i => Bytes.long? bytes (8 + 4 * i)
  let axisCount ← Bytes.word? bytes offset
  let regionCount ← Bytes.word? bytes (offset + 2)
  let total := regionCount * axisCount
  if 0x10000 ≤ total then none
  let regions ← (List.range total).mapM fun i => axisRegion? bytes (offset + 4 + 6 * i)
  return ⟨bytes, groups, axisCount, regions⟩

/-- The differences of the metrics of a font with some axes. -/
def MetricsVariation.ofTable? (axes : Nat) (mvar : List UInt8) : Option MetricsVariation := do
  if (← Bytes.long? mvar 0) ≠ 0x00010000 || (← Bytes.word? mvar 6) ≠ 8 then none
  let count ← Bytes.word? mvar 8
  let offset ← Bytes.word? mvar 10
  if count = 0 || offset = 0 then none
  let entries ← (List.range count).mapM fun i => do
    let start := 12 + 8 * i
    return (← Bytes.long? mvar start, ← Bytes.word? mvar (start + 4),
      ← Bytes.word? mvar (start + 6))
  let store ← VariationStore.ofBytes? (← Bytes.tail? mvar offset)
  return ⟨min axes maximalAxes, entries, store⟩

/-! ### Differences at the origin -/

namespace VariationStore

/-- Whether a region covers the origin of a space with some axes. -/
def coversOrigin (s : VariationStore) (axes region : Nat) : Bool :=
  (List.range axes).all fun axis =>
    match s.regions[region * s.axisCount + axis]? with
    | some r => region * s.axisCount + axis < 0x10000 && r.coversOrigin
    | none => false

/-- The differences of a row with the regions that they belong to.  The first ones of a row are
twice as wide as the others. -/
def row? (s : VariationStore) (group row : Nat) : Option (List (Nat × Int)) := do
  let start ← s.groups[group]?
  let rowCount ← Bytes.word? s.bytes start
  let widths ← Bytes.word? s.bytes (start + 2)
  let regionCount ← Bytes.word? s.bytes (start + 4)
  let regions ← (List.range regionCount).mapM fun i => Bytes.word? s.bytes (start + 6 + 2 * i)
  if rowCount ≤ row then none
  let long : Bool := 0x8000 ≤ widths
  let wide := widths % 0x8000
  if regionCount < wide then none
  let unit := if long then 2 else 1
  let offset := start + 6 + 2 * regionCount + row * ((wide + regionCount) * unit)
  let difference? (i : Nat) : Option Int :=
    if i < wide then
      if long then Bytes.signedLong? s.bytes (offset + 4 * i)
      else Bytes.signedWord? s.bytes (offset + 2 * i)
    else
      let at_ := offset + (wide + i) * unit
      if long then Bytes.signedWord? s.bytes at_ else Bytes.signedByte? s.bytes at_
  let differences ← (List.range regionCount).mapM difference?
  return regions.zip differences

end VariationStore

/-- The entry of a tag in an ascending list, found by halving; `size` entries from `base` on are
left. -/
def findEntry? (entries : List (Nat × Nat × Nat)) (tag : Nat) :
    (turns base size : Nat) → Option (Nat × Nat)
  | turns + 1, base, size =>
    if size ≤ 1 then findEntry? entries tag 0 base size
    else
      let half := size / 2
      let above : Bool := match entries[base + half]? with
        | some (t, _) => tag < t
        | none => true
      findEntry? entries tag turns (if above then base else base + half) (size - half)
  | 0, base, _ =>
    match entries[base]? with
    | some (t, place) => if t = tag then some place else none
    | none => none

/-- The number that a tag of four letters makes up. -/
def tagNumber (tag : String) : Nat := Bytes.toNat tag.toUTF8.toList

namespace MetricsVariation

/-- By how much a metric differs at the origin; not at all if the font does not tell. -/
def difference (v : MetricsVariation) (tag : String) : Float32 :=
  let differences? : Option (List (Nat × Int)) := do
    let (group, row) ← findEntry? v.entries (tagNumber tag) v.entries.length 0 v.entries.length
    v.store.row? group row
  (differences?.getD []).foldl
    (fun sum (region, d) =>
      if v.store.coversOrigin v.axes region then sum + Binary32.ofInt d else sum) 0

end MetricsVariation

/-- A metric at the origin, as an integer of two bytes; it stays as it is if the result is none. -/
def varied (variation? : Option MetricsVariation) (tag : String) (value : Int) : Int :=
  match variation? with
  | none => value
  | some v =>
    match Binary32.integerPart? (Binary32.ofInt value + v.difference tag) with
    | some n => if -0x8000 ≤ n && n < 0x8000 then n else value
    | none => value

end Font

end SvgDisplayList
