import SvgDisplayList.Text.Quoted

/-!
# Faults of JPEG files

A fault is told by its cause.  Its message starts with the segment in which it was met, where the
segment has a name for that; a message without one is shown between quotes.
-/

namespace SvgDisplayList

namespace Jpeg

/-- Why a JPEG file cannot be decoded. -/
inductive Error where
  | truncated (expected found : Nat)
  /-- The image would take too much memory. -/
  | tooLarge
  | illegalStart (word : Nat)
  | zeroSize
  | shortSegment (length : Nat)
  | shortApplicationSegment (number : Nat)
  | shortExtendedMetadata
  | shortColorSegment
  | unknownColorTransform (number : Nat)
  | prematureEnd
  | unsupportedSegment (name : String)
  | wrongRestartLength
  | duplicateFrame
  | unsupportedPrecision (bits : Nat)
  | noComponents
  | wrongFrameLength (expected length : Nat)
  | unknownComponent (place : Nat)
  | tableNumberTooLarge (number : Nat)
  | zeroWidthRatio
  | zeroHeightRatio
  | widthRatioTooLarge (ratio : Nat)
  | heightRatioTooLarge (ratio : Nat)
  | shortTableSegment
  | tableTooLong (left needed : Nat)
  | unknownTablePrecision (precision : Nat)
  | tablePositionTooLarge (position : Nat)
  | shortCodeSegment
  | codeIndexTooLarge (index : Nat)
  | unknownCodeClass (codeClass : Nat)
  | tooManySymbols
  | symbolsBeyondSegment (count left : Nat)
  | badCode
  | bytesBehindCodes
  | wrongScanLength (length : Nat)
  | invalidScanCount (count : Nat)
  | scanBeforeFrame
  | duplicateScanComponent (id : Nat)
  | unknownScanComponent (id : Nat) (known : List Nat)
  | invalidBandEnd (number : Nat)
  | invalidBandStart (number : Nat)
  | invalidHighBit (number : Nat)
  | invalidLowBit (number : Nat)
  | missingTable (component : String)
  | missingDcCode (component : String)
  | missingAcCode (component : String)
  /-- The number of a code is beyond the greatest one. -/
  | noDcCodeNumber (component : String)
  | noAcCodeNumber (component : String)
  | missingMarker
  | exhausted
  | misplacedMarker (name : String)
  | tooManySegmentsBetweenScans (limit : Nat)
  | tooManyScans (limit : Nat)
deriving DecidableEq, Repr

namespace Error

/-- A message about the frame. -/
def aboutFrame (s : String) : String := "Error parsing SOF segment. Reason:" ++ s

/-- A message about a scan. -/
def aboutScan (s : String) : String := "Error parsing SOS Segment. Reason:" ++ s

/-- A message about a quantization table. -/
def aboutTable (s : String) : String := "Error parsing DQT segment. Reason:" ++ s

/-- A message about a prefix code. -/
def aboutCode (s : String) : String := "Error decoding huffman values: " ++ s

/-- What the length of an application segment is said to be the length of. -/
def applicationName : (number : Nat) → String
  | 1 => "app1 length"
  | 2 => "app2 segment"
  | number => "APP" ++ toString number ++ " length"

/-- What is wrong with the format. -/
def reason : Error → String
  | truncated expected found =>
    "I/O errors Not enough bytes, expected " ++ toString expected ++ " but found " ++
      toString found ++ "\n"
  | tooLarge => ""
  | illegalStart word =>
    "Error parsing image. Illegal start bytes:" ++
      String.ofList ((Nat.toDigits 16 word).map Char.toUpper)
  | zeroSize => "Image width or height is set to zero, cannot continue"
  | shortSegment length =>
    Text.quoted ("Found a marker with invalid length:" ++ toString length ++ "\n")
  | shortApplicationSegment number => Text.quoted ("Too small " ++ applicationName number)
  | shortExtendedMetadata => Text.quoted "Too small Extended XMP segment"
  | shortColorSegment => Text.quoted "Too short of a length for App14 segment"
  | unknownColorTransform number => Text.quoted ("Unknown Adobe colorspace " ++ toString number)
  | prematureEnd => Text.quoted "Premature End of image"
  | unsupportedSegment name =>
    Text.quoted
      ("Parsing of the following header `" ++ name ++ "` is not supported,cannot continue")
  | wrongRestartLength => Text.quoted "Bad DRI length, Corrupt JPEG"
  | duplicateFrame => aboutFrame "Two Start of Frame Markers"
  | unsupportedPrecision bits =>
    aboutFrame ("The library can only parse 8-bit images, the image has " ++ toString bits ++
      " bits of precision")
  | noComponents => aboutFrame "Number of components cannot be zero."
  | wrongFrameLength expected length =>
    aboutFrame ("Length of start of frame differs from expected " ++ toString expected ++
      ",value is " ++ toString length)
  | unknownComponent place =>
    Text.quoted ("Unknown component id found," ++ toString place ++
      ", expected value between 1 and 4")
  | tableNumberTooLarge number =>
    Text.quoted ("Too large quantization number :" ++ toString number ++
      ", expected value between 0 and 4")
  | zeroWidthRatio => Text.quoted "Horizontal sample is zero"
  | zeroHeightRatio => Text.quoted "Vertical sample is zero"
  | widthRatioTooLarge ratio => Text.quoted ("Bogus Horizontal Sampling Factor " ++ toString ratio)
  | heightRatioTooLarge ratio => Text.quoted ("Bogus Vertical Sampling Factor " ++ toString ratio)
  | shortTableSegment => Text.quoted "Invalid DQT length. Length should be greater than 2"
  | tableTooLong left needed =>
    aboutTable ("Invalid QT table bytes left :" ++ toString left ++
      ". Too small to construct a valid qt table which should be " ++ toString needed ++ " long")
  | unknownTablePrecision precision =>
    aboutTable ("Expected QT precision value of either 0 or 1, found " ++ toString precision)
  | tablePositionTooLarge position =>
    aboutTable ("Too large table position for QT :" ++ toString position ++
      ", expected between 0 and 3")
  | shortCodeSegment => Text.quoted "Invalid Huffman length in image"
  | codeIndexTooLarge index =>
    aboutCode ("Invalid DHT index " ++ toString index ++ ", expected between 0 and 3")
  | unknownCodeClass codeClass =>
    aboutCode ("Invalid DHT position " ++ toString codeClass ++ ", should be 0 or 1")
  | tooManySymbols => Text.quoted "Encountered Huffman table with excessive length in DHT"
  | symbolsBeyondSegment count left =>
    aboutCode ("Excessive Huffman table of length " ++ toString count ++
      " found when header length is " ++ toString left)
  | badCode => aboutCode "Bad Huffman Table"
  | bytesBehindCodes => Text.quoted "Bogus Huffman table definition"
  | wrongScanLength length => aboutScan ("Bad SOS length " ++ toString length ++ ",corrupt jpeg")
  | invalidScanCount count =>
    aboutScan ("Invalid number of components in start of scan " ++ toString count ++
      ", expected in range 1..5")
  | scanBeforeFrame => Text.quoted "Error decoding SOF Marker, Number of components cannot be zero."
  | duplicateScanComponent id =>
    aboutFrame ("Duplicate ID " ++ toString id ++ " seen twice in the same component")
  | unknownScanComponent id known =>
    aboutFrame ("Invalid component id " ++ toString id ++ ", expected one one of [" ++
      String.intercalate ", " (known.map toString) ++ "]")
  | invalidBandEnd number =>
    aboutScan ("Invalid Se parameter " ++ toString number ++ ", range should be 0-63")
  | invalidBandStart number =>
    aboutScan ("Invalid Ss parameter " ++ toString number ++ ", range should be 0-63")
  | invalidHighBit number =>
    aboutScan ("Invalid Ah parameter " ++ toString number ++ ", range should be 0-13")
  | invalidLowBit number =>
    aboutScan ("Invalid Al parameter " ++ toString number ++ ", range should be 0-13")
  | missingTable component => aboutTable ("No quantization table for component " ++ component)
  | missingDcCode component => aboutCode ("No DC table for component " ++ component)
  | missingAcCode component => aboutCode ("No AC table for component " ++ component)
  | noDcCodeNumber component => aboutCode ("No Huffman DC table for component " ++ component ++ " ")
  | noAcCodeNumber component => aboutCode ("No Huffman AC table for component " ++ component ++ " ")
  | missingMarker => Text.quoted "Marker missing where expected"
  | exhausted => "Exhausted data in the image"
  | misplacedMarker name =>
    "Error in decoding MCU. Reason Marker " ++ name ++ " found in bitstream, possibly corrupt jpeg"
  | tooManySegmentsBetweenScans limit =>
    Text.quoted ("Too many markers between scans (exceeded limit of " ++ toString limit ++ ")")
  | tooManyScans limit => Text.quoted ("Too many scans, exceeded limit of " ++ toString limit)

def message : Error → String
  | tooLarge => "Memory limit exceeded"
  | e => "Format error decoding Jpeg: " ++ e.reason

end Error

end Jpeg

end SvgDisplayList
