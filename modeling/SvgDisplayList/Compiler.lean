import SvgDisplayList.Configuration
import SvgDisplayList.Log.Performance

/-!
# Compilers

A compiler translates one document after the other with the same settings.  Two things outlive a
translation: the abort signal, which stays raised until it is reset, and the logs.
-/

namespace SvgDisplayList

/-- The state between two translations. -/
structure Compiler where
  settings : Settings
  /-- The abort signal. -/
  raised : Bool
  /-- The lines of the log of diagnostics, if there is one. -/
  diagnosticsLog? : Option (List String)
  performanceLog? : Option Log.Performance

/-- A document and the time that its translation takes, in nanoseconds. -/
structure TimedDocument where
  text : String
  time : Nat

/-- The time of a document in milliseconds.  Whole seconds and the rest are added as numbers of
double precision. -/
def TimedDocument.milliseconds (d : TimedDocument) : Float :=
  let second := 1000000000
  (Float.ofNat (d.time / second) + Float.ofNat (d.time % second) / Float.ofNat second) * 1000

namespace Compiler

/-- Opens a log, if its path is given. -/
def openLog {α : Type} (openFile : String → Except String Unit) (path? : Option String) (log : α) :
    Except DocumentError (Option α) :=
  match path? with
  | none => .ok none
  | some path =>
    match openFile path with
    | .error reason => .error (.unreadable reason)
    | .ok () => .ok (some log)

/-- The compiler of a configuration.  The logs are opened once all else is sound. -/
def ofConfiguration (c : Configuration) (openFile : String → Except String Unit) :
    Except DocumentError Compiler := do
  let settings ← c.settings
  let diagnosticsLog? ← openLog openFile c.diagnosticsLog? []
  let performanceLog? ← openLog openFile c.performanceLog? Log.Performance.empty
  return { settings, raised := false, diagnosticsLog?, performanceLog? }

/-! ### The abort signal -/

def abort (c : Compiler) : Compiler := { c with raised := true }

def reset (c : Compiler) : Compiler := { c with raised := false }

/-! ### Translations -/

/-- Writes a translation into the logs. -/
def log (c : Compiler) (id : Log.DocumentId) (ms : Float) (t? : Option Translation) : Compiler :=
  { c with
    diagnosticsLog? := c.diagnosticsLog?.map fun lines =>
      match t? with
      | some t => lines ++ Log.diagnosticBlock id t
      | none => lines
    performanceLog? := c.performanceLog?.map fun p => p.add id ms t? }

/-- Translates the document of a number. -/
def run (c : Compiler) (id : Log.DocumentId) (d : TimedDocument) :
    Except DocumentError Translation × Compiler :=
  let (result, raised) := c.settings.translateWith d.text c.raised
  (result, { c with raised }.log id d.milliseconds result.toOption)

/-- Translates a document on its own. -/
def translate (c : Compiler) (d : TimedDocument) : Except DocumentError Translation × Compiler :=
  c.run none d

/-- Translates documents in turn, numbered from a start. -/
def translateFrom (c : Compiler) (start : Nat) :
    List TimedDocument → List (Except DocumentError Translation) × Compiler
  | [] => ([], c)
  | d :: ds =>
    let (result, c) := c.run (some start) d
    let (results, c) := c.translateFrom (start + 1) ds
    (result :: results, c)

/-- Translates the documents of a batch, numbered from nought. -/
def translateBatch (c : Compiler) (ds : List TimedDocument) :
    List (Except DocumentError Translation) × Compiler :=
  c.translateFrom 0 ds

end Compiler

end SvgDisplayList
