import Folio.Document.Basic
import Folio.Frame

/-!
# Shapes and text frames

What stands freely on a slide: shapes with a fill and an outline, and frames of text. Both carry
their own place, and their colours and fonts may be roles.
-/

namespace Folio

/-- What a shape looks like. -/
inductive ShapeKind where
  | rectangle
  | roundedRectangle
  | oval
  | rightArrow
  | textBox
  deriving DecidableEq, Inhabited

/-- Where the text of a frame stands when it does not fill the frame. -/
inductive VerticalAlign where
  | top
  | middle
  | bottom
  deriving DecidableEq, Inhabited

/-- The outline of a shape. -/
structure LineSpec where
  /-- Its colour. -/
  color : ColorRef
  /-- Its width in points. -/
  widthPt : Float32
  deriving DecidableEq

/-- A shape without text. -/
structure ShapeSpec where
  /-- Where it lies. -/
  frame : Box
  /-- What it looks like. -/
  kind : ShapeKind
  /-- The colour inside. -/
  fill : Option ColorRef := none
  /-- The outline. -/
  line : Option LineSpec := none
  deriving DecidableEq

namespace ShapeSpec

/-- Fills the shape. -/
def filled (s : ShapeSpec) (c : ColorRef) : ShapeSpec := { s with fill := some c }

/-- Outlines the shape. -/
def outlined (s : ShapeSpec) (line : LineSpec) : ShapeSpec := { s with line := some line }

end ShapeSpec

/-- A frame of text. -/
structure TextFrame where
  /-- Where it lies. -/
  frame : Box
  /-- The id of the style of its text. -/
  styleId : Option String := none
  /-- Properties declared by the frame itself. -/
  overrides : StyleProperties := {}
  /-- The text. -/
  runs : List Run
  /-- Where the text stands. -/
  valign : VerticalAlign := .top
  deriving DecidableEq

namespace TextFrame

/-- A frame with plain text in a style. -/
def ofText (frame : Box) (styleId text : String) : TextFrame :=
  { frame, styleId := some styleId, runs := [{ text }] }

/-- Gives the text a style. -/
def style (t : TextFrame) (id : String) : TextFrame := { t with styleId := some id }

/-- Declares properties above those that the frame declares already. -/
def override (t : TextFrame) (p : StyleProperties) : TextFrame :=
  { t with overrides := p.above t.overrides }

/-- Moves the text to the top, the middle or the bottom. -/
def aligned (t : TextFrame) (v : VerticalAlign) : TextFrame := { t with valign := v }

end TextFrame

end Folio
