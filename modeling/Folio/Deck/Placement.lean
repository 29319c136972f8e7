import Folio.Deck.Interpolation
import Folio.Deck.Placed
import Folio.Deck.Stack
import Folio.Style.Styling

/-!
# Placing decks

Shapes and text frames keep their place; groups of cards go through the grid, and every cell gets
the shapes of the template, moved to the corner of the cell. Text gets its properties as in
documents, so that a deck and a document of one stylesheet agree. The first failure in the order
of the deck counts.
-/

namespace Folio

/-- The colour that may be meant. -/
def ColorRef.resolveAny (theme : Theme) (c : Option ColorRef) : Except BuildError (Option Color) :=
  c.mapM (resolve theme)

/-- The outline with its colour. -/
def LineSpec.resolve (theme : Theme) (line : LineSpec) : Except BuildError LineStyle := do
  return ⟨← line.color.resolve theme, line.widthPt⟩

namespace PlacedText

/-- Resolves a run whose surroundings declare `around`. -/
def span (styling : Styling) (around : StyleProperties) (run : Run) :
    Except BuildError TextSpan := do
  return ⟨run.text, (← styling.resolveRun around run.styleId run.overrides).run⟩

/-- Resolves runs in a style with overrides. -/
def resolve (styling : Styling) (styleId : Option String) (overrides : StyleProperties)
    (runs : List Run) (valign : VerticalAlign) : Except BuildError PlacedText := do
  let own ← styling.declared styleId overrides
  let style ← styling.settle own
  return ⟨← runs.mapM (span styling own), style.paragraph.alignment, valign⟩

end PlacedText

/-- Places a shape. -/
def ShapeSpec.place (styling : Styling) (s : ShapeSpec) : Except BuildError PlacedShape := do
  let fill ← ColorRef.resolveAny styling.theme s.fill
  let line ← s.line.mapM (LineSpec.resolve styling.theme)
  return { frame := s.frame, kind := s.kind, fill, line }

/-- Places a frame of text. -/
def TextFrame.place (styling : Styling) (t : TextFrame) : Except BuildError PlacedShape := do
  let text ← PlacedText.resolve styling t.styleId t.overrides t.runs t.valign
  return { frame := t.frame, kind := .textBox, text := some text }

namespace Slot

/-- Places a slot of the card of an item. -/
def place (styling : Styling) (item : GridItem) (frame : Box) (s : Slot) :
    Except BuildError PlacedShape :=
  match s.content with
  | .shape kind fill => return { frame, kind, fill := ← ColorRef.resolveAny styling.theme fill }
  | _ => do
    let text := (← s.textFor item).getD ""
    let text ← PlacedText.resolve styling s.styleId s.overrides [{ text }] s.valign
    return { frame, kind := .textBox, text := some text }

end Slot

namespace CardTemplate

/-- The fill of the card of an item: the colour whose role is the value of a field, or one of its
own. -/
def resolveFill (styling : Styling) (card : CardTemplate) (item : GridItem) :
    Except BuildError (Option Color) :=
  match card.fillField with
  | some name =>
    match item.get? name with
    | some role => return some (← styling.theme.color role)
    | none => .error (.missingField item.index name)
  | none => ColorRef.resolveAny styling.theme card.fill

/-- What lies behind the card of an item, if anything does. -/
def placeBackground (styling : Styling) (card : CardTemplate) (p : Placed GridItem) :
    Except BuildError (List PlacedShape) := do
  let fill ← card.resolveFill styling p.item
  match card.shape.or (fill.map fun _ => ShapeKind.rectangle) with
  | some kind =>
    let line ← card.line.mapM (LineSpec.resolve styling.theme)
    return [{ frame := p.frame, kind, fill, line }]
  | none => return []

/-- Places slots whose frames are given from the corner of the card. -/
def placeSlots (styling : Styling) (p : Placed GridItem) :
    List (Slot × Box) → Except BuildError (List PlacedShape)
  | [] => return []
  | (s, frame) :: rest => do
    let shape ← s.place styling p.item (frame.translate p.frame.x p.frame.y)
    return shape :: (← placeSlots styling p rest)

/-- Places the card of an item, given the frames of the slots. -/
def placeCard (styling : Styling) (card : CardTemplate) (frames : List Box) (p : Placed GridItem) :
    Except BuildError PlacedCard := do
  let background ← card.placeBackground styling p
  let slots ← placeSlots styling p (card.slots.zip frames)
  return ⟨p, background ++ slots⟩

end CardTemplate

namespace Connector

/-- The shape from a card to its neighbour on the right. -/
def place (c : Connector) (fill : Option Color) (card : PlacedCard) : PlacedShape :=
  { frame := c.frame.translate card.item.frame.x card.item.frame.y, kind := c.kind, fill }

/-- The shapes between neighbours, for cards from a position on; none leads to a new row. -/
def placeAll (c : Connector) (fill : Option Color) (spec : GridSpec Float32) :
    Nat → List PlacedCard → Except BuildError (List PlacedShape)
  | _, [] => return []
  | _, [_] => return []
  | i, card :: next :: rest => do
    let (col, _) ← spec.cell (i + 1)
    let others ← c.placeAll fill spec (i + 1) (next :: rest)
    return if col = 0 then others else c.place fill card :: others

end Connector

namespace GridGroup

/-- The shapes between neighbours; the fill has to be known even where there are none. -/
def placeConnectors (styling : Styling) (group : GridGroup) (cards : List PlacedCard) :
    Except BuildError (List PlacedShape) :=
  match group.card.connector with
  | some c => do
    let fill ← ColorRef.resolveAny styling.theme c.fill
    c.placeAll fill group.spec 0 cards
  | none => return []

/-- Places a group of cards. -/
def place (styling : Styling) (group : GridGroup) : Except BuildError PlacedGroup := do
  let items ← group.spec.layout group.items
  let frames ← group.card.slotFrames group.spec.cellWidth
  let cards ← items.mapM (group.card.placeCard styling frames)
  return ⟨cards, ← group.placeConnectors styling cards⟩

end GridGroup

/-- Places an element of a slide. -/
def SlideElement.place (styling : Styling) : SlideElement → Except BuildError PlacedElement
  | .text frame => return .shape (← frame.place styling)
  | .shape spec => return .shape (← spec.place styling)
  | .grid group => return .group (← group.place styling)

/-- Places the slide at a position; its elements come before its background. -/
def Slide.place (styling : Styling) (index : Nat) (s : Slide) : Except BuildError PlacedSlide := do
  let elements ← s.elements.mapM (SlideElement.place styling)
  return ⟨index, ← ColorRef.resolveAny styling.theme s.background, elements⟩

namespace Deck

/-- Places slides from a position on. -/
def placeSlides (styling : Styling) : Nat → List Slide → Except BuildError (List PlacedSlide)
  | _, [] => return []
  | index, s :: rest => do
    let slide ← s.place styling index
    return slide :: (← placeSlides styling (index + 1) rest)

/-- Places a deck on slides of a format. -/
def place (styling : Styling) (format : DeckFormat) (deck : Deck) :
    Except BuildError PlacedDeck := do
  let slides ← placeSlides styling 0 deck.slides
  return ⟨if deck.title = "" then format.title else deck.title, format.width, format.height, slides⟩

end Deck

end Folio
