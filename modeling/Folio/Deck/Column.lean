import Folio.Deck.Stack

/-!
# Cards as columns of boxes

A card as an engine of flexible box layout gets it: a box of the size of the cell with the padding
of the card, and in it one box for each slot. The slots that flow are boxes of a column that neither
grow nor shrink and stretch to both sides unless they have a width; the others lie out of the flow.
Whatever a card leaves out has the value that it has in any column unless it is given another one.
-/

namespace Folio

/-- How a box lies between the sides of a column. -/
inductive CrossAlign where
  /-- At the left side. -/
  | start
  /-- In the middle. -/
  | center
  /-- At the right side. -/
  | finish
  /-- From side to side, unless the box has a width. -/
  | stretch
  deriving DecidableEq

/-- Where the space lies that the boxes of a column leave. -/
inductive MainAlign where
  /-- Below the last box. -/
  | start
  /-- Half of it above the first box and half of it below the last one. -/
  | center
  /-- Above the first box. -/
  | finish
  /-- In equal parts between the boxes. -/
  | between
  deriving DecidableEq

/-- The limits of a size, where it has some. -/
structure Limits where
  /-- The least size. -/
  least : Option Float32 := none
  /-- The greatest size. -/
  greatest : Option Float32 := none

/-- A box in the flow of a column. -/
structure FlowBox where
  /-- The width, if it is not the width of the column. -/
  width : Option Float32 := none
  /-- The height, before the box grows or shrinks. -/
  height : Option Float32 := none
  /-- The limits of the width. -/
  widthLimits : Limits := {}
  /-- The limits of the height. -/
  heightLimits : Limits := {}
  /-- The space around the box. -/
  margin : Insets := .zero
  /-- What stands for the height where shares are counted. -/
  basis : Option Float32 := none
  /-- The share that the box takes of space that is left. -/
  grow : Float32 := 0
  /-- The share that the box gives up of space that is missing. -/
  shrink : Float32 := 1
  /-- How the box lies between the sides, if not as the others do. -/
  align : Option CrossAlign := none

/-- A box out of the flow of a column. -/
structure FixedBox where
  /-- The distance from the left edge of the column. -/
  left : Option Float32 := none
  /-- The distance from the upper edge. -/
  top : Option Float32 := none
  /-- The distance from the right edge. -/
  right : Option Float32 := none
  /-- The distance from the lower edge. -/
  bottom : Option Float32 := none
  /-- The width. -/
  width : Option Float32 := none
  /-- The height. -/
  height : Option Float32 := none
  /-- The space around the box. -/
  margin : Insets := .zero

/-- A part of a column. -/
inductive ColumnBox where
  /-- A box in the flow. -/
  | flow (box : FlowBox)
  /-- A box out of the flow. -/
  | fixed (box : FixedBox)

/-- A column of boxes. -/
structure Column where
  /-- The width with the padding, if it is not the width that the boxes need. -/
  width : Option Float32
  /-- The height with the padding. -/
  height : Float32
  /-- The space inside the edges. -/
  padding : Insets
  /-- Where the space lies that the boxes leave. -/
  justify : MainAlign := .start
  /-- How the boxes lie between the sides. -/
  align : CrossAlign := .stretch
  /-- The boxes in their order. -/
  boxes : List ColumnBox

namespace Slot

/-- The box of a slot in the flow. A share in missing space would squash the slots of an overfull
card, so the box has none. -/
def flowBox (s : Slot) (marginTop : Float32) : FlowBox :=
  { width := s.width, height := some s.height, margin := ⟨marginTop, 0, 0, 0⟩, shrink := 0 }

/-- The box of a slot at an offset in a cell of some width. -/
def fixedBox (cellWidth : Float32) (s : Slot) (x y : Float32) : FixedBox :=
  { left := some x, top := some y, width := some (s.width.getD (greater (cellWidth - x) 0)),
    height := some s.height }

/-- The box of a slot in a cell of some width. -/
def columnBox (cellWidth : Float32) (s : Slot) : ColumnBox :=
  match s.placement with
  | .flow marginTop => .flow (s.flowBox marginTop)
  | .absolute x y => .fixed (s.fixedBox cellWidth x y)

end Slot

namespace CardTemplate

/-- The column of a card in a cell of some size. -/
def column (card : CardTemplate) (cellWidth cellHeight : Float32) : Column :=
  { width := some cellWidth, height := cellHeight, padding := card.padding, align := .stretch,
    boxes := card.slots.map (Slot.columnBox cellWidth) }

/-- The frames that an engine gives the slots of a card whose measures are in range. -/
def framesBy (engine : Column → List Box) (card : CardTemplate) (cellWidth cellHeight : Float32) :
    Except BuildError (List Box) := do
  card.validate
  return engine (card.column cellWidth cellHeight)

end CardTemplate

end Folio
