import SvgDisplayList.Image.DataUri
import SvgDisplayList.Image.Jpeg
import SvgDisplayList.Image.Png

/-!
# The size of an embedded image

An image has a size only if the whole of it can be decoded.
-/

namespace SvgDisplayList

namespace EmbeddedImage

/-- The width and the height of an image in pixels. -/
def size (image : EmbeddedImage) : Except ImageError (Nat × Nat) :=
  match image.format with
  | .png => (Png.size image.data).mapError fun e => .undecodable e.message
  | .jpeg => (Jpeg.size image.data).mapError fun e => .undecodable e.message

end EmbeddedImage

end SvgDisplayList
