import Folio.Deck.Shape
import Folio.Grid.Basic

/-!
# Cards

A group of items is shown as a grid of cards that all follow one template: a background, slots
with text or shapes, and perhaps connectors between neighbours of a row. Slots that flow are
stacked inside the padding; the others lie at a fixed offset from the corner of the card.
-/

namespace Folio

/-- The space between the edges of a card and the slots that flow. -/
structure Insets where
  /-- Above. -/
  top : Float32
  /-- On the right. -/
  right : Float32
  /-- Below. -/
  bottom : Float32
  /-- On the left. -/
  left : Float32
  deriving DecidableEq

namespace Insets

/-- The same space on every side. -/
def uniform (v : Float32) : Insets := ⟨v, v, v, v⟩

/-- No space. -/
def zero : Insets := uniform 0

end Insets

/-- What a slot shows. -/
inductive SlotContent where
  /-- The label of the item. -/
  | label
  /-- A value of the item. -/
  | field (name : String)
  /-- The same text on every card. -/
  | literal (text : String)
  /-- A text in which names in braces stand for values of the item. -/
  | template (text : String)
  /-- A shape instead of text. -/
  | shape (kind : ShapeKind) (fill : Option ColorRef)
  deriving DecidableEq

/-- Where a slot lies in its card. -/
inductive SlotPlacement where
  /-- Below the slot that flows before it. -/
  | flow (marginTop : Float32)
  /-- At an offset from the corner of the card. -/
  | absolute (x y : Float32)
  deriving DecidableEq

/-- A part of a card. -/
structure Slot where
  /-- What it shows. -/
  content : SlotContent
  /-- Where it lies. -/
  placement : SlotPlacement := .flow 0
  /-- Its height. -/
  height : Float32
  /-- Its width, unless it takes what is left of the card. -/
  width : Option Float32 := none
  /-- The id of the style of its text. -/
  styleId : Option String := none
  /-- Properties declared by the slot itself. -/
  overrides : StyleProperties := {}
  /-- Where its text stands. -/
  valign : VerticalAlign := .top
  deriving DecidableEq

namespace Slot

/-- A slot of some content in the flow. -/
def ofContent (content : SlotContent) (height : Float32) : Slot := { content, height }

/-- A slot for the label. -/
def label (height : Float32) : Slot := ofContent .label height

/-- A slot for a value of the item. -/
def field (name : String) (height : Float32) : Slot := ofContent (.field name) height

/-- A slot for a fixed text. -/
def literal (text : String) (height : Float32) : Slot := ofContent (.literal text) height

/-- A slot for a text with values of the item. -/
def template (text : String) (height : Float32) : Slot := ofContent (.template text) height

/-- A slot for a shape. -/
def shape (kind : ShapeKind) (fill : Option ColorRef) (height : Float32) : Slot :=
  ofContent (.shape kind fill) height

/-- Puts the slot into the flow, with a margin above it. -/
def flowing (s : Slot) (marginTop : Float32) : Slot := { s with placement := .flow marginTop }

/-- Puts the slot at an offset from the corner of the card. -/
def placed (s : Slot) (x y : Float32) : Slot := { s with placement := .absolute x y }

/-- Gives the slot a width. -/
def ofWidth (s : Slot) (width : Float32) : Slot := { s with width := some width }

/-- Gives the text a style. -/
def style (s : Slot) (id : String) : Slot := { s with styleId := some id }

/-- Declares properties above those that the slot declares already. -/
def override (s : Slot) (p : StyleProperties) : Slot :=
  { s with overrides := p.above s.overrides }

/-- Moves the text to the top, the middle or the bottom. -/
def aligned (s : Slot) (v : VerticalAlign) : Slot := { s with valign := v }

end Slot

/-- A shape between neighbouring cards of a row. -/
structure Connector where
  /-- What it looks like. -/
  kind : ShapeKind
  /-- Where it lies, from the corner of the left card. -/
  frame : Box
  /-- The colour inside. -/
  fill : Option ColorRef := none
  deriving DecidableEq

/-- What all cards of a group look like. -/
structure CardTemplate where
  /-- The shape behind the card; a rectangle if there is only a fill. -/
  shape : Option ShapeKind := none
  /-- The colour of that shape. -/
  fill : Option ColorRef := none
  /-- The field whose value is the role of that colour, in place of `fill`. -/
  fillField : Option String := none
  /-- The outline of that shape. -/
  line : Option LineSpec := none
  /-- The space around the slots that flow. -/
  padding : Insets := .zero
  /-- The slots in their order. -/
  slots : List Slot := []
  /-- The shape between neighbours. -/
  connector : Option Connector := none
  deriving DecidableEq

namespace CardTemplate

/-- Puts a filled shape behind the card. -/
def background (card : CardTemplate) (kind : ShapeKind) (c : ColorRef) : CardTemplate :=
  { card with shape := some kind, fill := some c }

/-- Takes the role of the fill from a field. -/
def fillFrom (card : CardTemplate) (name : String) : CardTemplate :=
  { card with fillField := some name }

/-- Outlines the card. -/
def outlined (card : CardTemplate) (line : LineSpec) : CardTemplate :=
  { card with line := some line }

/-- Sets the space around the slots that flow. -/
def padded (card : CardTemplate) (padding : Insets) : CardTemplate := { card with padding }

/-- Adds a slot at the end. -/
def slot (card : CardTemplate) (s : Slot) : CardTemplate :=
  { card with slots := card.slots ++ [s] }

/-- Joins neighbours. -/
def joined (card : CardTemplate) (c : Connector) : CardTemplate :=
  { card with connector := some c }

end CardTemplate

/-- Items shown as a grid of cards. -/
structure GridGroup where
  /-- The items in their order. -/
  items : List GridItem
  /-- The geometry of the grid. -/
  spec : GridSpec Float32
  /-- What the cards look like. -/
  card : CardTemplate

end Folio
