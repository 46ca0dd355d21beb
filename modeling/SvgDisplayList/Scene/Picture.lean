import SvgDisplayList.Display.Command
import SvgDisplayList.Image.Size
import SvgDisplayList.Scene.Attribute

/-!
# Images

An image is placed in a box.  Where a side of the box is missing, the image has to be decoded for
its own size, and the box keeps its proportions.
-/

namespace SvgDisplayList

namespace ImageCommand

/-- The sides of the box of an image. -/
def sides (image : EmbeddedImage) (width height : Option Float32) :
    Except ImageError (Float32 × Float32) :=
  match width, height with
  | some w, some h => .ok (w, h)
  | width, height =>
    match image.size with
    | .error e => .error e
    | .ok (columns, rows) =>
      if columns = 0 || rows = 0 then .error .invalidSize
      else
        let w' := Binary32.ofNat columns
        let h' := Binary32.ofNat rows
        match width, height with
        | some w, none => .ok (w, w * h' / w')
        | none, some h => .ok (h * w' / h', h)
        | _, _ => .ok (w', h')

/-- The command that places the image of an element; there is none for an empty box. -/
def ofTag (tag : Xml.Tag) (sizes : ReferenceSizes) : Except ElementError (Option ImageCommand) :=
  match tag.href? with
  | none => .error (.missingAttribute "href")
  | some uri => do
    let image ← (EmbeddedImage.ofDataUri uri).mapError .image
    let x ← tag.length "x" .horizontal sizes
    let y ← tag.length "y" .vertical sizes
    let width ← tag.length? "width" .horizontal sizes
    let height ← tag.length? "height" .vertical sizes
    let (w, h) ← (sides image width height).mapError .image
    if w < 0 || h < 0 then .error (.image .invalidSize)
    else if w == 0 || h == 0 then return none
    else return some ⟨image.data, image.format, ⟨snap x, snap y, snap w, snap h⟩⟩

end ImageCommand

end SvgDisplayList
