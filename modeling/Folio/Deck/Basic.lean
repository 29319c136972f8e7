import Folio.Deck.Card

/-!
# Decks

A deck is a list of slides, each a background with text frames, shapes and groups of cards; later
elements lie above earlier ones.
-/

namespace Folio

/-- What stands on a slide. -/
inductive SlideElement where
  | text (frame : TextFrame)
  | shape (spec : ShapeSpec)
  | grid (group : GridGroup)

/-- A slide. -/
structure Slide where
  /-- The colour behind everything. -/
  background : Option ColorRef := none
  /-- The elements, the lowest first. -/
  elements : List SlideElement := []

namespace Slide

/-- Gives the slide a background. -/
def on (s : Slide) (c : ColorRef) : Slide := { s with background := some c }

/-- Adds an element above the others. -/
def add (s : Slide) (e : SlideElement) : Slide := { s with elements := s.elements ++ [e] }

/-- Adds a frame of text. -/
def text (s : Slide) (frame : TextFrame) : Slide := s.add (.text frame)

/-- Adds a shape. -/
def shape (s : Slide) (spec : ShapeSpec) : Slide := s.add (.shape spec)

/-- Adds a group of cards. -/
def grid (s : Slide) (group : GridGroup) : Slide := s.add (.grid group)

end Slide

/-- A deck of slides. -/
structure Deck where
  /-- The title; a deck may have none. -/
  title : String := ""
  /-- The slides in their order. -/
  slides : List Slide := []

namespace Deck

/-- Adds a slide at the end. -/
def slide (deck : Deck) (s : Slide) : Deck := { deck with slides := deck.slides ++ [s] }

end Deck

/-- The title of decks that have none. -/
def untitledDeck : String := "doc-forge deck"

/-- The size of the slides, and the title of a deck that has none. -/
structure DeckFormat where
  /-- The title of a deck that has none. -/
  title : String := untitledDeck
  /-- The width in inches. -/
  width : Float32 := 10
  /-- The height in inches. -/
  height : Float32 := 5.625
  deriving DecidableEq

namespace DeckFormat

/-- Slides in the proportion 16 to 9. -/
def widescreen : DeckFormat := {}

/-- Slides in the proportion 4 to 3. -/
def standard : DeckFormat := { height := 7.5 }

end DeckFormat

end Folio
