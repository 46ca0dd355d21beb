import SvgDisplayList.Codec.Base64
import SvgDisplayList.Codec.Bytes
import SvgDisplayList.Codec.Crc32
import SvgDisplayList.Codec.Huffman
import SvgDisplayList.Codec.Inflate
import SvgDisplayList.CommandLine
import SvgDisplayList.Compiler
import SvgDisplayList.Configuration
import SvgDisplayList.Css.Calc
import SvgDisplayList.Css.ColorMix
import SvgDisplayList.Css.ColorSpace
import SvgDisplayList.Css.ColorValue
import SvgDisplayList.Css.Component
import SvgDisplayList.Css.NamedColor
import SvgDisplayList.Css.Token
import SvgDisplayList.Display.Command
import SvgDisplayList.Error
import SvgDisplayList.Font.Face
import SvgDisplayList.Font.Metrics
import SvgDisplayList.Font.Registry
import SvgDisplayList.Font.Variation
import SvgDisplayList.Geometry.Arc
import SvgDisplayList.Geometry.Matrix
import SvgDisplayList.Geometry.Outline
import SvgDisplayList.Geometry.Point
import SvgDisplayList.Geometry.TransformList
import SvgDisplayList.Gradient.Basic
import SvgDisplayList.Gradient.Chain
import SvgDisplayList.Gradient.Reader
import SvgDisplayList.Gradient.Resolution
import SvgDisplayList.Image.DataUri
import SvgDisplayList.Image.Format
import SvgDisplayList.Image.Jpeg
import SvgDisplayList.Image.JpegError
import SvgDisplayList.Image.JpegHeaders
import SvgDisplayList.Image.JpegSamples
import SvgDisplayList.Image.JpegSegment
import SvgDisplayList.Image.JpegUsualCodes
import SvgDisplayList.Image.Png
import SvgDisplayList.Image.PngChunk
import SvgDisplayList.Image.Size
import SvgDisplayList.Keyed
import SvgDisplayList.Log.Diagnostics
import SvgDisplayList.Log.Performance
import SvgDisplayList.Main
import SvgDisplayList.Number.Binary32
import SvgDisplayList.Number.Decimal
import SvgDisplayList.Number.Elementary
import SvgDisplayList.Number.FixedPoint
import SvgDisplayList.Number.Shortest
import SvgDisplayList.Number.Trigonometry
import SvgDisplayList.PathData.Reader
import SvgDisplayList.PathData.Scanner
import SvgDisplayList.PathData.Step
import SvgDisplayList.Proofs.Codec.Base64
import SvgDisplayList.Proofs.Display.GradientPaint
import SvgDisplayList.Proofs.Display.Grouping
import SvgDisplayList.Proofs.Display.PaintRoutes
import SvgDisplayList.Proofs.Display.Scaling
import SvgDisplayList.Proofs.Display.Vanishing
import SvgDisplayList.Proofs.Display.Visibility
import SvgDisplayList.Proofs.Display.WellFormed
import SvgDisplayList.Proofs.Drawing.Abort
import SvgDisplayList.Proofs.Drawing.Bare
import SvgDisplayList.Proofs.Drawing.Content
import SvgDisplayList.Proofs.Drawing.Contribution
import SvgDisplayList.Proofs.Drawing.Depth
import SvgDisplayList.Proofs.Drawing.Expansion
import SvgDisplayList.Proofs.Drawing.Faults
import SvgDisplayList.Proofs.Drawing.Occurrence
import SvgDisplayList.Proofs.Drawing.Origin
import SvgDisplayList.Proofs.Drawing.Plain
import SvgDisplayList.Proofs.Drawing.Resemblance
import SvgDisplayList.Proofs.Drawing.Shown
import SvgDisplayList.Proofs.Drawing.Unplaced
import SvgDisplayList.Proofs.Fallible
import SvgDisplayList.Proofs.Font.Lookup
import SvgDisplayList.Proofs.Geometry.Arc
import SvgDisplayList.Proofs.Geometry.Box
import SvgDisplayList.Proofs.Geometry.Composition
import SvgDisplayList.Proofs.Geometry.Finite
import SvgDisplayList.Proofs.Geometry.Move
import SvgDisplayList.Proofs.Geometry.NumberList
import SvgDisplayList.Proofs.Geometry.Outline
import SvgDisplayList.Proofs.Geometry.TransformList
import SvgDisplayList.Proofs.Gradient.Chain
import SvgDisplayList.Proofs.Gradient.Inheritance
import SvgDisplayList.Proofs.Gradient.Ramp
import SvgDisplayList.Proofs.Image.DataUri
import SvgDisplayList.Proofs.Inlining.Document
import SvgDisplayList.Proofs.Inlining.Mirror
import SvgDisplayList.Proofs.Inlining.Registry
import SvgDisplayList.Proofs.Inlining.Walk
import SvgDisplayList.Proofs.Keyed
import SvgDisplayList.Proofs.Log.Account
import SvgDisplayList.Proofs.Log.Flight
import SvgDisplayList.Proofs.Log.Journal
import SvgDisplayList.Proofs.Log.Lines
import SvgDisplayList.Proofs.Log.OneByOne
import SvgDisplayList.Proofs.Log.Totals
import SvgDisplayList.Proofs.Number.Angle
import SvgDisplayList.Proofs.Number.Arithmetic
import SvgDisplayList.Proofs.Number.Bounds
import SvgDisplayList.Proofs.Number.Decimal
import SvgDisplayList.Proofs.Number.HalfEven
import SvgDisplayList.Proofs.Number.MilliGrid
import SvgDisplayList.Proofs.Number.Overflow
import SvgDisplayList.Proofs.Number.Packing
import SvgDisplayList.Proofs.Number.Projection
import SvgDisplayList.Proofs.Number.Rounding
import SvgDisplayList.Proofs.Number.SinglePrecision
import SvgDisplayList.Proofs.Number.Snap
import SvgDisplayList.Proofs.Number.Value
import SvgDisplayList.Proofs.PathData.ByteScanner
import SvgDisplayList.Proofs.PathData.Explicit
import SvgDisplayList.Proofs.PathData.Fault
import SvgDisplayList.Proofs.PathData.Finite
import SvgDisplayList.Proofs.PathData.Grammar
import SvgDisplayList.Proofs.PathData.Meaning
import SvgDisplayList.Proofs.PathData.Misfit
import SvgDisplayList.Proofs.PathData.Numeral
import SvgDisplayList.Proofs.PathData.Pen
import SvgDisplayList.Proofs.PathData.Progress
import SvgDisplayList.Proofs.PathData.Reading
import SvgDisplayList.Proofs.PathData.Turn
import SvgDisplayList.Proofs.PathData.Words
import SvgDisplayList.Proofs.Removal.Document
import SvgDisplayList.Proofs.Removal.Failing
import SvgDisplayList.Proofs.Removal.Tree
import SvgDisplayList.Proofs.Removal.Walk
import SvgDisplayList.Proofs.Scene.Accounts
import SvgDisplayList.Proofs.Scene.Collecting
import SvgDisplayList.Proofs.Scene.Correspondence
import SvgDisplayList.Proofs.Scene.FiniteShape
import SvgDisplayList.Proofs.Scene.Registry
import SvgDisplayList.Proofs.Scene.Relocation
import SvgDisplayList.Proofs.Scene.Reordering
import SvgDisplayList.Proofs.Scene.Resolution
import SvgDisplayList.Proofs.Scene.ShapePath
import SvgDisplayList.Proofs.Session.Abort
import SvgDisplayList.Proofs.Session.Signal
import SvgDisplayList.Proofs.Style.ColorText
import SvgDisplayList.Proofs.Style.Inline
import SvgDisplayList.Proofs.Style.Property
import SvgDisplayList.Proofs.Style.Sequence
import SvgDisplayList.Proofs.Style.Share
import SvgDisplayList.Proofs.Style.Soundness
import SvgDisplayList.Proofs.Style.Undeclared
import SvgDisplayList.Proofs.Style.Visibility
import SvgDisplayList.Proofs.Text.Collapse
import SvgDisplayList.Proofs.Text.Json
import SvgDisplayList.Proofs.Text.Pieces
import SvgDisplayList.Proofs.Text.Trim
import SvgDisplayList.Proofs.Walk.Agenda
import SvgDisplayList.Proofs.Walk.Atomic
import SvgDisplayList.Proofs.Walk.Chain
import SvgDisplayList.Proofs.Walk.Document
import SvgDisplayList.Proofs.Walk.Fault
import SvgDisplayList.Proofs.Walk.Machine
import SvgDisplayList.Proofs.Walk.Path
import SvgDisplayList.Proofs.Walk.Recording
import SvgDisplayList.Proofs.Walk.Run
import SvgDisplayList.Proofs.Walk.Step
import SvgDisplayList.Proofs.Xml.Copies
import SvgDisplayList.Proofs.Xml.Numbering
import SvgDisplayList.Proofs.Xml.Tree
import SvgDisplayList.Scene.Attribute
import SvgDisplayList.Scene.Diagnostic
import SvgDisplayList.Scene.Drawing
import SvgDisplayList.Scene.ElementKind
import SvgDisplayList.Scene.Lettering
import SvgDisplayList.Scene.Painting
import SvgDisplayList.Scene.Picture
import SvgDisplayList.Scene.Registry
import SvgDisplayList.Scene.ShapeOutline
import SvgDisplayList.Scene.ViewBox
import SvgDisplayList.Style.Basic
import SvgDisplayList.Style.Color
import SvgDisplayList.Style.Declarations
import SvgDisplayList.Style.Decoration
import SvgDisplayList.Style.Inheritance
import SvgDisplayList.Style.Length
import SvgDisplayList.Style.Paint
import SvgDisplayList.Text.Blank
import SvgDisplayList.Text.FileName
import SvgDisplayList.Text.Glyph
import SvgDisplayList.Text.JsonString
import SvgDisplayList.Text.Quoted
import SvgDisplayList.Text.Similarity
import SvgDisplayList.Text.Utf16
import SvgDisplayList.Text.Utf8
import SvgDisplayList.Translation
import SvgDisplayList.Validation
import SvgDisplayList.Xml.Builder
import SvgDisplayList.Xml.Document
import SvgDisplayList.Xml.Error
import SvgDisplayList.Xml.Prolog
import SvgDisplayList.Xml.Reader
import SvgDisplayList.Xml.Scanner
