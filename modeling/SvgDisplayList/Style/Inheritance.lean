import SvgDisplayList.Style.Basic
import SvgDisplayList.Style.Declarations

/-!
# Inheritance

`Style.derive` makes the style of an element from that of its parent.  The font size is settled
first, because the lengths of the other declarations may be multiples of it; then every declaration
acts on its own property.  A value that cannot be read leaves its property alone, and so does the
word `inherit`.  Opacity is the one property that does not replace the inherited value: it
multiplies it.
-/

namespace SvgDisplayList

/-! ### Fonts -/

/-- The sizes that keywords name. -/
def namedFontSize? (parent : Float32) : String → Option Float32
  | "xx-small" => some 9
  | "x-small" => some 10
  | "small" => some 13
  | "medium" => some 16
  | "large" => some 18
  | "x-large" => some 24
  | "xx-large" => some 32
  | "larger" => some (parent * 1.2)
  | "smaller" => some (parent / 1.2)
  | _ => none

/-- A font size, relative units and percentages taken of the parent's size; never a negative one. -/
def fontSize? (parent : Float32) (value : String) : Option Float32 :=
  let cs := Text.trim value.toList
  let size := match namedFontSize? parent (String.ofList cs) with
    | some size => some size
    | none => ReferenceSizes.resolve ⟨parent, parent, parent⟩ .horizontal cs
  size.filter fun size => size ≥ 0

/-- The digits of a whole number, a plus sign allowed before them. -/
def unsigned? (cs : List Char) : Option Nat :=
  let digits := match cs with
    | '+' :: r => r
    | _ => cs
  if digits.isEmpty || !digits.all Char.isDigit then none
  else some (digits.foldl (fun n c => 10 * n + (c.toNat - '0'.toNat)) 0)

/-- A font weight between 1 and 1000, given by number, by name or relative to the parent's. -/
def fontWeight? (parent : Nat) (value : String) : Option Nat :=
  match Text.trimString value with
  | "normal" => some 400
  | "bold" => some 700
  | "bolder" => some (if parent < boldWeight then 700 else 900)
  | "lighter" => some (if boldWeight ≤ parent then 400 else 100)
  | other => (unsigned? other.toList).filter fun w => 1 ≤ w && w ≤ 1000

/-- The families of a list separated by commas, without their quotes. -/
def familyList (value : String) : List String :=
  let bare (cs : List Char) : List Char :=
    Text.trim (Text.trimBy (· == '\'') (Text.trimBy (· == '"') (Text.trim cs)))
  (((Text.pieces (· == ',') value.toList).map bare).filter fun f => !f.isEmpty).map String.ofList

/-! ### Dashes -/

/-- A pattern of dashes and gaps.  A pattern with a negative length, or without any positive one, is
no pattern; one of odd length is repeated, so that dashes and gaps alternate. -/
def dashPattern (lengths : List Float32) : List Float32 :=
  let lengths := if lengths.any (· < 0) || lengths.all (· == 0) then [] else lengths
  if lengths.length % 2 = 1 then lengths ++ lengths else lengths

/-- The dashes that a value denotes, separated by blanks or commas. -/
def dashes? (sizes : ReferenceSizes) (value : String) : Option (List Float32) :=
  if Text.sameIgnoringCase value.toList "none".toList then some []
  else
    ((Text.words (fun c => Text.isBlank c || c == ',') value.toList).mapM
      (sizes.resolve .diagonal)).map dashPattern

namespace Style

/-! ### One declaration -/

/-- What one declaration makes of a style. -/
def declare (sizes : ReferenceSizes) (s : Style) (name value : String) : Style :=
  let cs := value.toList
  if Text.sameIgnoringCase cs "inherit".toList then s
  else
    match name with
    | "fill" => { s with fill := (PaintSource.ofChars? cs).getD s.fill }
    | "stroke" => { s with stroke := (PaintSource.ofChars? cs).getD s.stroke }
    | "fill-opacity" => { s with fillOpacity := (opacity? cs).getD s.fillOpacity }
    | "stroke-opacity" => { s with strokeOpacity := (opacity? cs).getD s.strokeOpacity }
    | "opacity" =>
      match opacity? cs with
      | some v => { s with opacity := s.opacity * v }
      | none => s
    | "fill-rule" => { s with fillRule := if value = "evenodd" then .evenOdd else .nonzero }
    | "stroke-width" =>
      match sizes.resolve .diagonal cs with
      | some v => { s with strokeWidth := Binary32.max v 0 }
      | none => s
    | "stroke-linecap" =>
      { s with
        lineCap :=
          if value = "round" then .round else if value = "square" then .square else .butt }
    | "stroke-linejoin" =>
      { s with
        lineJoin :=
          if value = "round" then .round else if value = "bevel" then .bevel else .miter }
    | "stroke-miterlimit" =>
      match number? cs with
      | some v => { s with miterLimit := Binary32.max v 1 }
      | none => s
    | "stroke-dasharray" => { s with dashes := (dashes? sizes value).getD s.dashes }
    | "stroke-dashoffset" => { s with dashOffset := (sizes.resolve .diagonal cs).getD s.dashOffset }
    | "color" =>
      { s with color := ((AlphaColor.ofChars? (Text.trim cs)).map (·.color)).getD s.color }
    | "font-family" =>
      match familyList value with
      | [] => s
      | families => { s with fontFamilies := families }
    | "font-weight" => { s with fontWeight := (fontWeight? s.fontWeight value).getD s.fontWeight }
    | "font-style" =>
      { s with
        slant :=
          if value = "italic" then .italic else if value = "oblique" then .oblique else .upright }
    | "text-decoration" | "text-decoration-line" =>
      { s with decorations := (Decorations.ofValue? cs).getD s.decorations }
    | "text-anchor" =>
      { s with
        anchor :=
          if value = "middle" then .middle else if value = "end" then .finish else .start }
    | "visibility" => { s with visible := value != "hidden" && value != "collapse" }
    | _ => s

/-! ### All declarations of an element -/

/-- The style with its font size settled. -/
def withFontSize (s : Style) (d : Declarations) : Style :=
  match (d.get? "font-size").bind (fontSize? s.fontSize) with
  | some size => { s with fontSize := size }
  | none => s

/-- The style of an element that makes the given declarations, its parent having the style `s`. -/
def derive (s : Style) (d : Declarations) (sizes : ReferenceSizes) : Style :=
  let sized := s.withFontSize d
  let sizes := { sizes with fontSize := sized.fontSize }
  d.entries.foldl (fun s (name, value) => s.declare sizes name value) sized

end Style

end SvgDisplayList
