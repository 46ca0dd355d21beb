import SvgDisplayList.Image.JpegSamples

/-!
# JPEG files

The size of an image stands in its frame, before the samples.  The image can be decoded if
everything that the samples need has been given, and if the segments between and behind the scans
are sound, as far as these are reached.  An image is sequential, where a scan has the whole of some
components, or progressive, where it has a band of their coefficients.
-/

namespace SvgDisplayList

namespace Jpeg

/-! ### Units -/

/-- How many samples of a component stand side by side and one below the other in a unit. -/
def Headers.ratios (h : Headers) (c : Component) : Nat × Nat :=
  if h.isGrey then (1, 1) else (c.across, c.down)

/-- The greatest numbers of samples that stand side by side and one below the other. -/
def Headers.greatestRatios (h : Headers) (f : Frame) : Nat × Nat :=
  f.components.foldl (fun (a, d) c => (max a (h.ratios c).1, max d (h.ratios c).2)) (1, 1)

/-- The least number of parts of a length that cover another. -/
def coverBy (part n : Nat) : Nat := (n + part - 1) / part

/-- The width and the height of blocks. -/
def blockSide : Nat := 8

/-- How many units a scan of components has side by side and one below the other.  In a scan of one
component a unit is a block, in others it has all the blocks that belong together. -/
def Headers.units (h : Headers) (f : Frame) (components : List Component) : Nat × Nat :=
  let (across, down) := h.greatestRatios f
  match components with
  | [c] =>
    (coverBy blockSide (coverBy across (f.width * (h.ratios c).1)),
      coverBy blockSide (coverBy down (f.height * (h.ratios c).2)))
  | _ => (coverBy (blockSide * across) f.width, coverBy (blockSide * down) f.height)

/-- The component of each block of a unit. -/
def Headers.blocks (h : Headers) (components : List Component) : List Component :=
  match components with
  | [c] => [c]
  | cs => cs.flatMap fun c => List.replicate ((h.ratios c).1 * (h.ratios c).2) c

/-- The components of a scan. -/
def Scan.components (scan : Scan) (f : Frame) : List Component :=
  scan.places.filterMap (f.components[·]?)

/-- Passes over one unit in which each block is passed over in a way of its own. -/
def passEach (ways : List (Samples → Except Halt Samples)) (s : Samples) : Except Halt Samples :=
  ways.foldlM (fun s way => way s) s

/-- Reads a segment between samples. -/
def readBehind {α : Type} (read : Read α) (bytes : List UInt8) : Except Halt (α × List UInt8) :=
  (read.run bytes).mapError .faulty

/-! ### Sequential images -/

/-- Checks that each component has its codes. -/
def Headers.checkCodes (h : Headers) (f : Frame) : Except Error Unit :=
  f.components.zipIdx.forM fun (c, place) =>
    if maxComponents ≤ c.dcCode then .error (.noDcCodeNumber (componentName place))
    else if (h.code? .dc c.dcCode).isNone then .error (.missingDcCode (componentName place))
    else if maxComponents ≤ c.acCode then .error (.noAcCodeNumber (componentName place))
    else if (h.code? .ac c.acCode).isNone then .error (.missingAcCode (componentName place))
    else .ok ()

/-- How a block of a component is passed over. -/
def Headers.wayOfBlock (h : Headers) (c : Component) (s : Samples) : Except Halt Samples :=
  match h.code? .dc c.dcCode, h.code? .ac c.acCode with
  | some dc, some ac => s.passBlock dc ac
  | _, _ => .error .done

/-- Whether no more rows of a sequential scan are looked at: a marker that is no restart ends the
scan. -/
def endsRows (s : Samples) : Bool :=
  match s.marker? with
  | none => s.isIdle
  | some m => !isRestartMarker m

/-- Passes over the samples of a sequential scan.  Returns the marker that ends them. -/
def Headers.passSequential (h : Headers) (f : Frame) (scan : Scan) (bytes : List UInt8) :
    Except Halt (Nat × List UInt8) := do
  let components := scan.components f
  let (width, height) := h.units f components
  let unit := passEach ((h.blocks components).map h.wayOfBlock)
  let start : Samples := { rest := bytes, toRestart := h.interval }
  let s ← Samples.passRows h.interval unit endsRows width height start
  match s.marker? with
  | none => .error .done
  | some m => if isRestartMarker m || m = endMarker then .error .done else return (m, s.rest)

/-- How many segments there may be between two scans. -/
def betweenLimit : Nat := 64

/-- Reads the segments from a marker up to the next scan, which is read, too.  Returns nothing at
the end of the image. -/
def Headers.readBetween : (turns marker : Nat) → Headers → Read (Option Headers)
  | 0, _, _ => throw (.tooManySegmentsBetweenScans betweenLimit)
  | turns + 1, m, h => do
    if m = endMarker then return none
    let h ← h.readSegment m
    if m = scanMarker then return some h
    readBetween turns (← findMarker) h

/-- Reads the scans of a sequential image.  A first scan of all components is the only one. -/
def Headers.readSequential : (turns : Nat) → Headers → List UInt8 → Except Halt Unit
  | 0, _, _ => .ok ()
  | turns + 1, h, bytes => do
    match h.frame?, h.scan? with
    | some f, some scan =>
      (h.checkCodes f).mapError .faulty
      let (m, bytes) ← h.passSequential f scan bytes
      match ← readBehind (h.readBetween betweenLimit m) bytes with
      | (none, _) => return ()
      | (some next, bytes) =>
        if scan.places.length = f.components.length then return ()
        else readSequential turns next bytes
    | _, _ => return ()

/-! ### Progressive images -/

/-- What is known of the blocks of components, by the places of these: which coefficients are not
nought. -/
abbrev KnownBlocks := List (Nat × List Nat)

/-- How a block of a component is passed over in a scan of a band. -/
def Headers.wayOfBand (h : Headers) (scan : Scan) (c : Component) (s : Samples) :
    Except Halt Samples :=
  if scan.bandStart = 0 then
    match h.code? .dc (c.dcCode % maxComponents) with
    | none => .error .done
    | some dc => if scan.refines then .ok s.passBit else s.passConstant dc
  else
    match h.code? .ac c.acCode with
    | none => .error .done
    | some ac =>
      if scan.refines then s.passAddedBand ac scan.bandStart scan.bandEnd
      else if 0 < s.emptyBlocks then .ok { s with emptyBlocks := s.emptyBlocks - 1 }
      else s.passBand ac scan.bandEnd Samples.blockSize scan.bandStart

/-- Whether a scan holds either first coefficients or those of others of one component. -/
def Scan.isBand (scan : Scan) : Bool :=
  match scan.places with
  | [_] => scan.bandStart ≠ 0 || scan.bandEnd = 0
  | _ => scan.bandEnd = 0

/-- Passes over the samples of a progressive scan, with what is known of the blocks before and
behind it.  No fault in them counts. -/
def Headers.passProgressive (h : Headers) (known : KnownBlocks) (bytes : List UInt8) :
    Except Halt (KnownBlocks × Samples) := do
  match h.frame?, h.scan? with
  | some f, some scan =>
    if !scan.isBand then throw .done
    let components := scan.components f
    let (width, height) := h.units f components
    let unit := passEach ((h.blocks components).map (h.wayOfBand scan))
    let place := scan.places.headD 0
    let start : Samples :=
      { rest := bytes, toRestart := h.interval, ahead := (known.lookup place).getD [] }
    let endsRows (s : Samples) : Bool := s.isIdle && h.interval = 0
    let s ← (Samples.passRows h.interval unit endsRows width height start).mapError fun _ => .done
    return (if scan.bandStart = 0 then known else (place, s.allBlocks) :: known, s)
  | _, _ => throw .done

/-- How many scans there may be. -/
def scanLimit : Nat := 100

/-- The marker behind the samples, which is searched if it has not been met.  There may be none. -/
def Samples.next (s : Samples) : Except Halt (Nat × List UInt8) :=
  match s.marker? with
  | some m => .ok (m, s.rest)
  | none => (findMarker.run s.rest).mapError fun _ => .done

/-- Reads what follows the first scan of a progressive image, from a marker on. -/
def Headers.readProgressive :
    (turns marker scans : Nat) → KnownBlocks → Headers → List UInt8 → Except Halt Unit
  | 0, _, _, _, _, _ => .ok ()
  | turns + 1, m, scans, known, h, bytes => do
    if m = endMarker then return ()
    let (h, bytes) ← readBehind (h.readSegment m) bytes
    if m = scanMarker then
      let (known, s) ← h.passProgressive known bytes
      let (m, bytes) ← s.next
      if scanLimit < scans + 1 then throw (.faulty (.tooManyScans scanLimit))
      readProgressive turns m (scans + 1) known h bytes
    else
      let (m, bytes) ← (findMarker.run bytes).mapError fun _ => .done
      readProgressive turns m scans known h bytes

/-- Reads the scans of a progressive image.  The marker behind the first one has to be met. -/
def Headers.readBands (h : Headers) (bytes : List UInt8) : Except Halt Unit := do
  let (known, s) ← h.passProgressive [] bytes
  match s.marker? with
  | none => throw (.faulty .missingMarker)
  | some m => h.readProgressive (s.rest.length + 1) m 1 known s.rest

/-! ### Images -/

/-- How much memory an image may take. -/
def memoryLimit : Nat := 512 * 0x100000

/-- How much memory the image takes: grey images have one sample in a pixel, others three. -/
def Headers.memory (h : Headers) (f : Frame) : Nat :=
  f.width * f.height * (if h.isGrey then 1 else 3)

/-- Checks that each component has its quantization table. -/
def Headers.checkTables (h : Headers) (f : Frame) : Except Error Unit :=
  f.components.zipIdx.forM fun (c, place) =>
    if h.tables.contains c.table then .ok () else .error (.missingTable (componentName place))

/-- The fault in what the samples need or in what follows them, if any counts. -/
def Headers.checkSamples (h : Headers) (f : Frame) (bytes : List UInt8) : Except Error Unit := do
  let read := if f.progressive then h.readBands bytes else h.readSequential (bytes.length + 1) bytes
  match read with
  | .error (.faulty e) => .error e
  | _ => .ok ()

/-- The width and the height of the image in a file that can be decoded. -/
def size (file : List UInt8) : Except Error (Nat × Nat) := do
  let (h, bytes) ← readHeaders.run file
  match h.frame? with
  | none => .error .scanBeforeFrame
  | some f =>
    if memoryLimit < h.memory f then .error .tooLarge
    h.checkTables f
    h.checkSamples f bytes
    return (f.width, f.height)

end Jpeg

end SvgDisplayList
