import SvgDisplayList.PathData.Scanner
import SvgDisplayList.PathData.Step

/-!
# Reading path data

Path data is a sequence of letters, each followed by one or more sets of arguments; every set after
the first is one more step of the same command, except that a move is continued by lines.  Reading
stops at the first fault, and keeps the steps read so far beside it: a faulty text as a whole has no
outline, but where the pen stood is still a question one may ask.
-/

namespace SvgDisplayList

namespace PathData

/-- The ten commands, in either case. -/
inductive Command where
  | move | line | horizontal | vertical | cubic | smoothCubic | quadratic | smoothQuadratic | arc
  | close
deriving DecidableEq, Repr

namespace Command

/-- The command of a letter. -/
def ofLetter? (c : Char) : Option Command :=
  match c.toUpper with
  | 'M' => some move
  | 'L' => some line
  | 'H' => some horizontal
  | 'V' => some vertical
  | 'C' => some cubic
  | 'S' => some smoothCubic
  | 'Q' => some quadratic
  | 'T' => some smoothQuadratic
  | 'A' => some arc
  | 'Z' => some close
  | _ => none

/-- The command of a further set of arguments. -/
def repeated : Command → Command
  | move => line
  | c => c

/-- One set of arguments. -/
def arguments (k : Command) (letter : Char) (c : Cursor) : Except PathError (Motion × Cursor) :=
  match k with
  | move => do
    let (p, c) ← c.pair letter
    return (.move p, c)
  | line => do
    let (p, c) ← c.pair letter
    return (.line p, c)
  | horizontal => do
    let (x, c) ← c.number letter
    return (.horizontal x, c)
  | vertical => do
    let (y, c) ← c.number letter
    return (.vertical y, c)
  | cubic => do
    let (p, c) ← c.pair letter
    let (q, c) ← c.pair letter
    let (r, c) ← c.pair letter
    return (.cubic p q r, c)
  | smoothCubic => do
    let (q, c) ← c.pair letter
    let (r, c) ← c.pair letter
    return (.smoothCubic q r, c)
  | quadratic => do
    let (q, c) ← c.pair letter
    let (r, c) ← c.pair letter
    return (.quadratic q r, c)
  | smoothQuadratic => do
    let (p, c) ← c.pair letter
    return (.smoothQuadratic p, c)
  | arc => do
    let (rx, c) ← c.number letter
    let (ry, c) ← c.number letter
    let (rotation, c) ← c.number letter
    let (large, c) ← c.flag letter
    let (sweep, c) ← c.flag letter
    let (p, c) ← c.pair letter
    return (.arc ⟨rx, ry, rotation, large, sweep⟩ p, c)
  | close => .ok (.close, c)

end Command

/-- What has been read: the steps, and the fault that ended the reading, if one did. -/
structure Reading where
  steps : List Step
  error? : Option PathError

namespace Reading

def done : Reading := ⟨[], none⟩

def failed (e : PathError) : Reading := ⟨[], some e⟩

/-- A reading with one step before it. -/
def after (s : Step) (r : Reading) : Reading := ⟨s :: r.steps, r.error?⟩

/-- The steps of a reading without a fault. -/
def result (r : Reading) : Except PathError (List Step) :=
  match r.error? with
  | some e => .error e
  | none => .ok r.steps

end Reading

/-- What the reader expects next: a letter, or one more set of arguments of a command. -/
inductive Expectation where
  | letter (first : Bool)
  | arguments (command : Command) (letter : Char)

/-- Reads steps up to the end or the first fault.  Each turn consumes a character or is the last
one, so the length of the text bounds the number of turns. -/
def readFrom : (turns : Nat) → Expectation → Cursor → Reading
  | 0, _, _ => .done
  | turns + 1, .letter first, c =>
    let c := c.atToken
    match c.rest with
    | [] => .done
    | ch :: r =>
      if !isLetter ch then .failed (if first then .missingMoveTo else .invalidNumber c.offset)
      else
        match Command.ofLetter? ch with
        | none => .failed (if first then .missingMoveTo else .unknownCommand ch c.offset)
        | some k =>
          if first && k ≠ .move then .failed .missingMoveTo
          else readFrom turns (.arguments k ch) ⟨c.offset + 1, r⟩
  | turns + 1, .arguments k letter, c =>
    match k.arguments letter c with
    | .error e => .failed e
    | .ok (motion, c) =>
      let next := if k ≠ .close && c.more then .arguments k.repeated letter else .letter false
      (readFrom turns next c).after ⟨letter.isLower, motion⟩

/-- Reads a whole text. -/
def read (cs : List Char) : Reading := readFrom (2 * cs.length + 1) (.letter true) ⟨0, cs⟩

end PathData

/-- The steps of path data. -/
def Step.ofPathData (d : String) : Except PathError (List Step) := (PathData.read d.toList).result

/-- The outline that path data draws. -/
def Subpath.ofPathData (d : String) : Except PathError (List Subpath) :=
  (Step.ofPathData d).map Step.draw

end SvgDisplayList
