import Folio.Deck.Basic

/-!
# Placed decks

The form in which a deck leaves: every shape with its place on the slide, its colours and the
properties in effect for its text. Nothing has to be looked up or computed any more.
-/

namespace Folio

/-- A span of text with the properties in effect. -/
structure TextSpan where
  /-- The text. -/
  text : String
  /-- The properties in effect. -/
  style : RunStyle
  deriving DecidableEq

/-- The text of a shape. -/
structure PlacedText where
  /-- The spans in their order. -/
  runs : List TextSpan
  /-- How the lines are aligned. -/
  align : Alignment
  /-- Where the text stands. -/
  valign : VerticalAlign
  deriving DecidableEq

/-- The outline of a shape. -/
structure LineStyle where
  /-- Its colour. -/
  color : Color
  /-- Its width in points. -/
  widthPt : Float32
  deriving DecidableEq

/-- A shape on a slide. -/
structure PlacedShape where
  /-- Where it lies. -/
  frame : Box
  /-- What it looks like. -/
  kind : ShapeKind
  /-- The colour inside. -/
  fill : Option Color := none
  /-- The outline. -/
  line : Option LineStyle := none
  /-- The text. -/
  text : Option PlacedText := none
  deriving DecidableEq

/-- The text of all runs, empty for a shape without text. -/
def PlacedShape.plainText (s : PlacedShape) : String :=
  match s.text with
  | some t => String.join (t.runs.map (·.text))
  | none => ""

/-- An item in its cell, and the shapes that show it, the lowest first. -/
structure PlacedCard where
  /-- The item and its cell. -/
  item : Placed GridItem
  /-- The shapes. -/
  shapes : List PlacedShape

/-- The cards of a group and the shapes between them. -/
structure PlacedGroup where
  /-- The cards in the order of their items. -/
  cards : List PlacedCard
  /-- The shapes between neighbours. -/
  connectors : List PlacedShape := []

/-- What stands on a slide. -/
inductive PlacedElement where
  | shape (s : PlacedShape)
  | group (g : PlacedGroup)

/-- A slide. -/
structure PlacedSlide where
  /-- Its position in the deck. -/
  index : Nat
  /-- The colour behind everything. -/
  background : Option Color := none
  /-- The elements, the lowest first. -/
  elements : List PlacedElement

/-- A deck ready to be packaged. -/
structure PlacedDeck where
  /-- The title. -/
  title : String
  /-- The width of the slides in inches. -/
  width : Float32
  /-- The height of the slides in inches. -/
  height : Float32
  /-- The slides in their order. -/
  slides : List PlacedSlide

namespace PlacedGroup

/-- The shapes of all cards. -/
def cardShapes (g : PlacedGroup) : List PlacedShape := g.cards.flatMap (·.shapes)

/-- All shapes, the connectors last. -/
def shapes (g : PlacedGroup) : List PlacedShape := g.cardShapes ++ g.connectors

end PlacedGroup

/-- The shapes of an element. -/
def PlacedElement.shapes : PlacedElement → List PlacedShape
  | .shape s => [s]
  | .group g => g.shapes

namespace PlacedSlide

/-- The shapes on a slide, the lowest first. -/
def shapes (s : PlacedSlide) : List PlacedShape := s.elements.flatMap (·.shapes)

/-- The shapes that stand freely. -/
def freeShapes (s : PlacedSlide) : List PlacedShape :=
  s.elements.filterMap fun
    | .shape shape => some shape
    | .group _ => none

/-- The groups of cards. -/
def groups (s : PlacedSlide) : List PlacedGroup :=
  s.elements.filterMap fun
    | .shape _ => none
    | .group g => some g

end PlacedSlide

/-- The number of shapes in a deck. -/
def PlacedDeck.shapeCount (deck : PlacedDeck) : Nat := (deck.slides.flatMap (·.shapes)).length

end Folio
