import SvgDisplayList.Error
import SvgDisplayList.Font.Face
import SvgDisplayList.Font.Metrics
import SvgDisplayList.Keyed
import SvgDisplayList.Text.FileName

/-!
# Registered fonts

Fonts are looked up by the names that their files give them, and by the name of the file.  A name
belongs to the font that claimed it first.
-/

namespace SvgDisplayList

namespace FontMetrics

/-- The metrics of a face.  What a face does not tell is made up from what it does, or is as
usual. -/
def ofFace (face : Font.Face) : FontMetrics :=
  let unitsPerEm := max face.unitsPerEm 1
  let em (units : Int) : Float32 := Binary32.ofInt units / Binary32.ofNat unitsPerEm
  let ascent := em face.ascender
  let capHeight := match face.capHeight? with
    | some h => em h
    | none => ascent * 0.875
  let (underlinePosition, underlineThickness) := match face.underline? with
    | some l => (em l.position, em l.thickness)
    | none => (usual.underlinePosition, usual.underlineThickness)
  let (strikeoutPosition, strikeoutThickness) := match face.strikeout? with
    | some l => (em l.position, em l.thickness)
    | none => (capHeight / 2, underlineThickness)
  { ascent, descent := em face.descender, capHeight, underlinePosition, underlineThickness,
    strikeoutPosition, strikeoutThickness }

end FontMetrics

namespace Font

/-- The first name of one of the given kinds. -/
def Face.name? (face : Face) (kinds : List Nat) : Option String :=
  face.names.findSome? fun n => if kinds.contains n.kind then n.text? else none

/-- The name of the family, typographic or not. -/
def Face.family? (face : Face) : Option String := face.name? [16, 1]

/-- The name of the family with that of the style. -/
def Face.fullName? (face : Face) : Option String := face.name? [4]

/-- The name for page description languages. -/
def Face.postScriptName? (face : Face) : Option String := face.name? [6]

/-- The main name of a face from a source, and the other names that it claims. -/
def Face.claims (face : Face) (source : String) : String × List String :=
  let main := (((face.family?.or face.fullName?).or face.postScriptName?).getD source)
  let others := [face.fullName?, face.postScriptName?, some source].filterMap id
  (main, others.filter (· != main))

end Font

/-- A font with the name that it is listed under. -/
structure RegisteredFont where
  name : String
  metrics : FontMetrics

/-- Fonts in the order of their registration, and the positions of the fonts by the names they
claimed. -/
structure FontRegistry where
  fonts : List RegisteredFont
  positions : Keyed Nat

namespace FontRegistry

def empty : FontRegistry := ⟨[], []⟩

/-- A name as it is compared: without blanks and quotes at its ends, in lower case. -/
def normalize (name : String) : String :=
  String.ofList
    (Text.lower (Text.trimBy (· == '\'') (Text.trimBy (· == '"') (Text.trim name.toList))))

/-- Claims a name for a position, unless it is empty or taken. -/
def claim (positions : Keyed Nat) (position : Nat) (name : String) : Keyed Nat :=
  let key := normalize name
  if key.isEmpty then positions else Keyed.putNew key position positions

/-- The name of a font of which neither the name nor the file is known. -/
def anonymous : String := "EmbeddedFont"

/-- Registers the first face of a font file under the names it claims, `parse` reading the file.
Returns its main name as well. -/
def registerWith (parse : List UInt8 → Option Font.Face) (r : FontRegistry) (file : List UInt8)
    (source? : Option String) : Except DocumentError (FontRegistry × String) :=
  let source := source?.getD anonymous
  match parse file with
  | none => .error (.invalidConfiguration ("invalid font data for " ++ source))
  | some face =>
    let (main, others) := face.claims source
    let positions :=
      (main :: others).foldl (fun ps name => claim ps r.fonts.length name) r.positions
    .ok (⟨r.fonts ++ [⟨main, .ofFace face⟩], positions⟩, main)

/-- Registers the first face of a font file. -/
def register (r : FontRegistry) (file : List UInt8) (source? : Option String) :
    Except DocumentError (FontRegistry × String) :=
  r.registerWith Font.Face.ofFile? file source?

/-- Registers the first face of a font file of a name, if the file can be read. -/
def registerFile (r : FontRegistry) (name : String) (contents : Except String (List UInt8)) :
    Except DocumentError (FontRegistry × String) :=
  match contents with
  | .error reason => .error (.unreadable reason)
  | .ok file => r.register file (some (String.ofList (FileName.stem (FileName.last name.toList))))

/-- The font that a family name belongs to. -/
def font? (r : FontRegistry) (family : String) : Option RegisteredFont :=
  (Keyed.get? r.positions (normalize family)).bind fun i => r.fonts[i]?

/-- The metrics of the first family that is registered. -/
def metrics (r : FontRegistry) (families : List String) : FontMetrics :=
  ((families.findSome? r.font?).map (·.metrics)).getD .usual

/-- The registry as a source of metrics. -/
def source (r : FontRegistry) : FontSource := ⟨fun q => r.metrics q.families, fun _ => false⟩

end FontRegistry

end SvgDisplayList
