import SvgDisplayList.Image.JpegUsualCodes

/-!
# The segments of a JPEG file by their markers

A segment stands behind a marker, which is a byte that is not nought behind one that is 255, and
tells what kind of segment it is.  What the segments read so far have told is kept in `Headers`; the
segments up to the first scan are read in one go, since every image has them.
-/

namespace SvgDisplayList

namespace Jpeg

/-! ### Markers -/

/-- The marker of the start of a scan. -/
def scanMarker : Nat := 0xda

/-- The marker of the end of an image. -/
def endMarker : Nat := 0xd9

/-- Whether a marker is one between samples, where the reading of them starts afresh. -/
def isRestartMarker (m : Nat) : Bool := 0xd0 ≤ m && m ≤ 0xd7

/-- A marker as it is shown. -/
def markerName (m : Nat) : String :=
  if 0xc0 ≤ m && m ≤ 0xc2 then "SOF(" ++ toString (m - 0xc0) ++ ")"
  else if m = 0xc4 then "DHT"
  else if m = 0xcc then "DAC"
  else if isRestartMarker m then "RST(" ++ toString (m - 0xd0) ++ ")"
  else if m = 0xd8 then "SOI"
  else if m = endMarker then "EOI"
  else if m = scanMarker then "SOS"
  else if m = 0xdb then "DQT"
  else if m = 0xdc then "DNL"
  else if m = 0xdd then "DRI"
  else if 0xe0 ≤ m && m ≤ 0xef then "APP(" ++ toString (m - 0xe0) ++ ")"
  else if m = 0xfe then "COM"
  else "UNKNOWN(" ++ toString m ++ ")"

/-- The next marker of a file, over whatever comes before it. -/
def nextMarker : (turns : Nat) → Read Nat
  | 0 => throw .exhausted
  | turns + 1 => do
    if (← get).isEmpty then throw .exhausted
    if (← byte) ≠ 0xff then nextMarker turns
    else
      modify fun bytes => bytes.dropWhile (· == 0xff)
      let m ← byte
      if m = 0 then nextMarker turns else return m

/-- Searches the next marker in all that is left of a file. -/
def findMarker : Read Nat := do nextMarker ((← get).length + 1)

/-! ### Segments -/

/-- What the segments read so far have told. -/
structure Headers where
  frame? : Option Frame := none
  /-- What the scan at hand holds. -/
  scan? : Option Scan := none
  tables : List Nat := []
  codes : Codes := []
  /-- How many units there are between restarts, or nought if there are none. -/
  interval : Nat := 0
  /-- Whether the one component of the image is its brightness. -/
  isGrey : Bool := false
  /-- Whether the usual codes may be left out. -/
  isMotion : Bool := false
deriving DecidableEq, Repr

namespace Headers

/-- Reads the segment of a marker. -/
def readSegment (h : Headers) (marker : Nat) : Read Headers := do
  match marker with
  | 0xc0 | 0xc1 | 0xc2 =>
    if h.frame?.isSome then throw .duplicateFrame
    let frame ← readFrame (marker == 0xc2)
    return { h with frame? := some frame, isGrey := frame.components.length = 1 }
  | 0xc4 => return { h with codes := ← readCodeSegment h.codes }
  | 0xcc => throw (.unsupportedSegment "DAC")
  | 0xd9 => throw .prematureEnd
  | 0xda =>
    let (frame, scan) ← readScan h.frame?
    return { h with frame? := some frame, scan? := some scan }
  | 0xdb => return { h with tables := h.tables ++ (← readTableSegment) }
  | 0xdc => throw (.unsupportedSegment "DNL")
  | 0xdd => return { h with interval := ← readRestarts }
  | 0xe0 => return { h with isMotion := (← readApplication) || h.isMotion }
  | 0xe1 => readDescription; return h
  | 0xe2 => readProfile; return h
  | 0xed => readCaptions; return h
  | 0xee => return { h with isGrey := !(← readColorSegment) && h.isGrey }
  | _ => skipSegment; return h

/-- The code of a class that a number stands for. -/
def code? (h : Headers) (codeClass : CodeClass) (number : Nat) : Option PrefixCode :=
  (if h.isMotion then h.codes ++ usualCodes else h.codes).lookup (codeClass, number)

end Headers

/-! ### From marker to marker -/

/-- Passes over bytes that fill up the space before the code of a marker.  Returns the first other
byte and the byte before it. -/
def passFill : (turns last m : Nat) → Read (Nat × Nat)
  | 0, last, m => return (last, m)
  | turns + 1, last, m => do
    if m = 0xff || m = 0 then passFill turns m (← byte) else return (last, m)

/-- Reads segments up to the first scan.  A marker is a byte after one that is 255. -/
def readSegments : (turns last : Nat) → Headers → Read Headers
  | 0, _, h => return h
  | turns + 1, last, h => do
    let m ← byte
    let (last, m) ← if last = 0xff then passFill turns last m else pure (last, m)
    if last ≠ 0xff then readSegments turns m h
    else
      let h ← h.readSegment m
      if m = scanMarker then return h else readSegments turns m h

/-- The marker that every file starts with. -/
def startMarker : Nat := 0xffd8

/-- Reads what precedes the samples. -/
def readHeaders : Read Headers := do
  let start ← word
  if start ≠ startMarker then throw (.illegalStart start)
  readSegments ((← get).length + 1) 0 {}

end Jpeg

end SvgDisplayList
