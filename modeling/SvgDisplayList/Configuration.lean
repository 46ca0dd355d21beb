import SvgDisplayList.Font.Registry
import SvgDisplayList.Number.Shortest
import SvgDisplayList.Translation

/-!
# Configurations

A configuration is what a caller asks for; `Configuration.settings` checks it and makes it the
settings of translations.  The first fault decides: the scale, the viewport, the nesting of uses,
the fonts.
-/

namespace SvgDisplayList

/-- A font to register. -/
inductive FontFile where
  /-- A file with its name, and its contents if it can be read. -/
  | named (name : String) (contents : Except String (List UInt8))
  /-- The contents of a file, and perhaps a name for it. -/
  | anonymous (contents : List UInt8) (name? : Option String)

/-- What a caller asks for. -/
structure Configuration where
  viewport? : Option (Float32 × Float32)
  scale : Float32
  definitionsOnly : Bool
  reuseLimit : Nat
  /-- Where metrics come from, if not from font files. -/
  fonts? : Option FontSource
  fontFiles : List FontFile
  /-- The path of the log of diagnostics. -/
  diagnosticsLog? : Option String
  /-- The path of the log of performance. -/
  performanceLog? : Option String

namespace Configuration

def initial : Configuration where
  viewport? := none
  scale := Settings.initial.scale
  definitionsOnly := false
  reuseLimit := Settings.initial.reuseLimit
  fonts? := none
  fontFiles := []
  diagnosticsLog? := none
  performanceLog? := none

/-- Whether a length is finite and positive. -/
def isProper (v : Float32) : Bool := v.isFinite && v > 0

/-- Registers a font file under the name of the file or the name given with it. -/
def register (r : FontRegistry) (file : FontFile) : Except DocumentError FontRegistry :=
  match file with
  | .named name contents => (r.registerFile name contents).map (·.1)
  | .anonymous contents name? => (r.register contents name?).map (·.1)

/-- Whether a font has a file name. -/
def isNamed : FontFile → Bool
  | .named .. => true
  | .anonymous .. => false

/-- The source of metrics.  Files with names are registered before those without. -/
def fontSource (c : Configuration) : Except DocumentError FontSource :=
  match c.fonts?, c.fontFiles with
  | some _, _ :: _ =>
    .error (.invalidConfiguration "font_metrics cannot be combined with font_file/font_bytes")
  | some source, [] => .ok source
  | none, [] => .ok .usual
  | none, files =>
    let ordered := files.filter isNamed ++ files.filter fun f => !isNamed f
    (ordered.foldlM register FontRegistry.empty).map (·.source)

/-- The settings that a configuration asks for. -/
def settings (c : Configuration) : Except DocumentError Settings :=
  if !isProper c.scale then
    .error (.invalidConfiguration ("scale must be finite and > 0, got " ++ Binary32.text c.scale))
  else
    match c.viewport?.filter fun v => !(isProper v.1 && isProper v.2) with
    | some (w, h) =>
      .error (.invalidConfiguration
        ("viewport must be finite and > 0, got " ++ Binary32.text w ++ "x" ++ Binary32.text h))
    | none =>
      if c.reuseLimit = 0 then .error (.invalidConfiguration "max_use_depth must be >= 1")
      else c.fontSource.map fun fonts =>
        ⟨c.viewport?, c.scale, c.definitionsOnly, c.reuseLimit, fonts⟩

end Configuration

end SvgDisplayList
