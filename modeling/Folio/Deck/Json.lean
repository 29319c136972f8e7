import Folio.Deck.Placed
import Folio.Document.Json
import Folio.Grid.Json

/-!
# Decks as data

Slots, placements and elements carry their kind beside their fields, and inside them everything is
read leniently. A text span holds the properties in effect beside its text, so it has to be an
object and all of it has to be readable.
-/

namespace Folio

open Json

namespace ShapeKind

/-- The names of the kinds. -/
def choices : List (String × ShapeKind) :=
  [("rectangle", .rectangle), ("rounded_rectangle", .roundedRectangle), ("oval", .oval),
    ("right_arrow", .rightArrow), ("text_box", .textBox)]

/-- Reads a kind of shape. -/
def ofJson? (mode : Strictness) (v : Value) : Option ShapeKind := v.choice? mode choices

/-- The name of a kind. -/
def name : ShapeKind → String
  | .rectangle => "rectangle"
  | .roundedRectangle => "rounded_rectangle"
  | .oval => "oval"
  | .rightArrow => "right_arrow"
  | .textBox => "text_box"

/-- Writes a kind of shape. -/
def toJson (k : ShapeKind) : Value := .text k.name

end ShapeKind

namespace VerticalAlign

/-- The names of the positions. -/
def choices : List (String × VerticalAlign) :=
  [("top", .top), ("middle", .middle), ("bottom", .bottom)]

/-- Reads where text stands. -/
def ofJson? (mode : Strictness) (v : Value) : Option VerticalAlign := v.choice? mode choices

/-- The name of a position. -/
def name : VerticalAlign → String
  | .top => "top"
  | .middle => "middle"
  | .bottom => "bottom"

/-- Writes where text stands. -/
def toJson (a : VerticalAlign) : Value := .text a.name

end VerticalAlign

namespace LineSpec

/-- The names of the fields. -/
def fields : List String := ["color", "width_pt"]

/-- Reads an outline. -/
def ofJson? (v : Value) : Option LineSpec := do
  let [color, widthPt] ← v.slots? fields | none
  return {
    color := ← Value.required ColorRef.ofJson? color
    widthPt := ← Value.required Value.float32? widthPt }

/-- Writes an outline. -/
def toJson (line : LineSpec) : Value :=
  .record fields [some line.color.toJson, some (.ofFloat32 line.widthPt)]

end LineSpec

namespace ShapeSpec

/-- The names of the fields. -/
def fields : List String := ["frame", "kind", "fill", "line"]

/-- Reads a shape. -/
def ofJson? (mode : Strictness) (v : Value) : Option ShapeSpec := do
  let [frame, kind, fill, line] ← v.slots? fields | none
  return {
    frame := ← Value.required Box.ofJson? frame
    kind := ← Value.required (ShapeKind.ofJson? mode) kind
    fill := ← Value.optional ColorRef.ofJson? fill
    line := ← Value.optional LineSpec.ofJson? line }

/-- The fields of a shape. -/
def slots (s : ShapeSpec) : List (Option Value) :=
  [some (Box.toJson s.frame), some s.kind.toJson, s.fill.map ColorRef.toJson,
    s.line.map LineSpec.toJson]

/-- Writes a shape. -/
def toJson (s : ShapeSpec) : Value := .record fields s.slots

end ShapeSpec

namespace TextFrame

/-- The names of the fields. -/
def fields : List String := ["frame", "style_id", "overrides", "runs", "valign"]

/-- Reads a frame of text. -/
def ofJson? (mode : Strictness) (v : Value) : Option TextFrame := do
  let [frame, styleId, overrides, runs, valign] ← v.slots? fields | none
  return {
    frame := ← Value.required Box.ofJson? frame
    styleId := ← Value.optional Value.text? styleId
    overrides := ← Value.orElse (StyleProperties.ofJson? mode) {} overrides
    runs := ← Value.required (Value.list? (Run.ofJson? mode)) runs
    valign := ← Value.orElse (VerticalAlign.ofJson? mode) .top valign }

/-- The fields of a frame of text. -/
def slots (t : TextFrame) : List (Option Value) :=
  [some (Box.toJson t.frame), t.styleId.map .text, t.overrides.slot,
    some (.ofList Run.toJson t.runs), some t.valign.toJson]

/-- Writes a frame of text. -/
def toJson (t : TextFrame) : Value := .record fields t.slots

end TextFrame

namespace Insets

/-- The names of the fields. -/
def fields : List String := ["top", "right", "bottom", "left"]

/-- Reads paddings. -/
def ofJson? (v : Value) : Option Insets := do
  let [top, right, bottom, left] ← v.slots? fields | none
  return ⟨← Value.required Value.float32? top, ← Value.required Value.float32? right,
    ← Value.required Value.float32? bottom, ← Value.required Value.float32? left⟩

/-- Writes paddings. -/
def toJson (p : Insets) : Value :=
  .record fields
    [some (.ofFloat32 p.top), some (.ofFloat32 p.right), some (.ofFloat32 p.bottom),
      some (.ofFloat32 p.left)]

end Insets

namespace SlotContent

/-- The names of the kinds of contents. -/
def kinds : List String := ["label", "field", "literal", "template", "shape"]

/-- Reads what a slot shows. -/
def ofJson? (mode : Strictness) (v : Value) : Option SlotContent :=
  match v.tagged? mode kinds with
  | some ("label", v) => v.noFields?.map fun _ => .label
  | some ("field", v) => do
    let [name] ← v.slots? ["name"] | none
    return .field (← Value.required Value.text? name)
  | some ("literal", v) => do
    let [text] ← v.slots? ["text"] | none
    return .literal (← Value.required Value.text? text)
  | some ("template", v) => do
    let [text] ← v.slots? ["text"] | none
    return .template (← Value.required Value.text? text)
  | some ("shape", v) => do
    let [kind, fill] ← v.slots? ["kind", "fill"] | none
    return .shape (← Value.required (ShapeKind.ofJson? .lenient) kind)
      (← Value.optional ColorRef.ofJson? fill)
  | _ => none

/-- Writes what a slot shows. -/
def toJson : SlotContent → Value
  | .label => .tagged "label" [] []
  | .field name => .tagged "field" ["name"] [some (.text name)]
  | .literal text => .tagged "literal" ["text"] [some (.text text)]
  | .template text => .tagged "template" ["text"] [some (.text text)]
  | .shape kind fill =>
    .tagged "shape" ["kind", "fill"] [some kind.toJson, fill.map ColorRef.toJson]

end SlotContent

namespace SlotPlacement

/-- The names of the kinds of placements. -/
def kinds : List String := ["flow", "absolute"]

/-- Reads where a slot lies. -/
def ofJson? (mode : Strictness) (v : Value) : Option SlotPlacement :=
  match v.tagged? mode kinds with
  | some ("flow", v) => do
    let [marginTop] ← v.slots? ["margin_top"] | none
    return .flow (← Value.orElse Value.float32? 0 marginTop)
  | some ("absolute", v) => do
    let [x, y] ← v.slots? ["x", "y"] | none
    return .absolute (← Value.required Value.float32? x) (← Value.required Value.float32? y)
  | _ => none

/-- Writes where a slot lies. -/
def toJson : SlotPlacement → Value
  | .flow marginTop => .tagged "flow" ["margin_top"] [some (.ofFloat32 marginTop)]
  | .absolute x y => .tagged "absolute" ["x", "y"] [some (.ofFloat32 x), some (.ofFloat32 y)]

end SlotPlacement

namespace Slot

/-- The names of the fields. -/
def fields : List String :=
  ["content", "placement", "height", "width", "style_id", "overrides", "valign"]

/-- Reads a slot. -/
def ofJson? (mode : Strictness) (v : Value) : Option Slot := do
  let [content, placement, height, width, styleId, overrides, valign] ← v.slots? fields | none
  return {
    content := ← Value.required (SlotContent.ofJson? mode) content
    placement := ← Value.required (SlotPlacement.ofJson? mode) placement
    height := ← Value.required Value.float32? height
    width := ← Value.optional Value.float32? width
    styleId := ← Value.optional Value.text? styleId
    overrides := ← Value.orElse (StyleProperties.ofJson? mode) {} overrides
    valign := ← Value.orElse (VerticalAlign.ofJson? mode) .top valign }

/-- Writes a slot. -/
def toJson (s : Slot) : Value :=
  .record fields
    [some s.content.toJson, some s.placement.toJson, some (.ofFloat32 s.height),
      s.width.map .ofFloat32, s.styleId.map .text, s.overrides.slot, some s.valign.toJson]

end Slot

namespace Connector

/-- The names of the fields. -/
def fields : List String := ["kind", "frame", "fill"]

/-- Reads a connector. -/
def ofJson? (mode : Strictness) (v : Value) : Option Connector := do
  let [kind, frame, fill] ← v.slots? fields | none
  return {
    kind := ← Value.required (ShapeKind.ofJson? mode) kind
    frame := ← Value.required Box.ofJson? frame
    fill := ← Value.optional ColorRef.ofJson? fill }

/-- Writes a connector. -/
def toJson (c : Connector) : Value :=
  .record fields [some c.kind.toJson, some (Box.toJson c.frame), c.fill.map ColorRef.toJson]

end Connector

namespace CardTemplate

/-- The names of the fields. -/
def fields : List String :=
  ["shape", "fill", "fill_field", "line", "padding", "slots", "connector"]

/-- Reads a card. -/
def ofJson? (mode : Strictness) (v : Value) : Option CardTemplate := do
  let [shape, fill, fillField, line, padding, slots, connector] ← v.slots? fields | none
  return {
    shape := ← Value.optional (ShapeKind.ofJson? mode) shape
    fill := ← Value.optional ColorRef.ofJson? fill
    fillField := ← Value.optional Value.text? fillField
    line := ← Value.optional LineSpec.ofJson? line
    padding := ← Value.orElse Insets.ofJson? .zero padding
    slots := ← Value.orElse (Value.list? (Slot.ofJson? mode)) [] slots
    connector := ← Value.optional (Connector.ofJson? mode) connector }

/-- Writes a card. -/
def toJson (card : CardTemplate) : Value :=
  .record fields
    [card.shape.map ShapeKind.toJson, card.fill.map ColorRef.toJson, card.fillField.map .text,
      card.line.map LineSpec.toJson, some card.padding.toJson,
      some (.ofList Slot.toJson card.slots), card.connector.map Connector.toJson]

end CardTemplate

namespace GridGroup

/-- The names of the fields. -/
def fields : List String := ["items", "spec", "card"]

/-- Reads a group of cards. -/
def ofJson? (mode : Strictness) (v : Value) : Option GridGroup := do
  let [items, spec, card] ← v.slots? fields | none
  return {
    items := ← Value.required (Value.list? GridItem.ofJson?) items
    spec := ← Value.required GridSpec.ofJson? spec
    card := ← Value.required (CardTemplate.ofJson? mode) card }

/-- The fields of a group of cards. -/
def slots (g : GridGroup) : List (Option Value) :=
  [some (.ofList GridItem.toJson g.items), some g.spec.toJson, some g.card.toJson]

/-- Writes a group of cards. -/
def toJson (g : GridGroup) : Value := .record fields g.slots

end GridGroup

namespace SlideElement

/-- The names of the kinds of elements. -/
def kinds : List String := ["text", "shape", "grid"]

/-- Reads an element. -/
def ofJson? (v : Value) : Option SlideElement :=
  match v.tagged? .strict kinds with
  | some ("text", v) => (TextFrame.ofJson? .lenient v).map .text
  | some ("shape", v) => (ShapeSpec.ofJson? .lenient v).map .shape
  | some ("grid", v) => (GridGroup.ofJson? .lenient v).map .grid
  | _ => none

/-- Writes an element. -/
def toJson : SlideElement → Value
  | .text frame => .tagged "text" TextFrame.fields frame.slots
  | .shape spec => .tagged "shape" ShapeSpec.fields spec.slots
  | .grid group => .tagged "grid" GridGroup.fields group.slots

end SlideElement

namespace Slide

/-- The names of the fields. -/
def fields : List String := ["background", "elements"]

/-- Reads a slide. -/
def ofJson? (v : Value) : Option Slide := do
  let [background, elements] ← v.slots? fields | none
  return {
    background := ← Value.optional ColorRef.ofJson? background
    elements := ← Value.orElse (Value.list? SlideElement.ofJson?) [] elements }

/-- Writes a slide. -/
def toJson (s : Slide) : Value :=
  .record fields [s.background.map ColorRef.toJson, some (.ofList SlideElement.toJson s.elements)]

end Slide

namespace Deck

/-- The names of the fields. -/
def fields : List String := ["title", "slides"]

/-- Reads a deck. -/
def ofJson? (v : Value) : Option Deck := do
  let [title, slides] ← v.slots? fields | none
  return {
    title := ← Value.required Value.text? title
    slides := ← Value.required (Value.list? Slide.ofJson?) slides }

/-- Writes a deck. -/
def toJson (deck : Deck) : Value :=
  .record fields [some (.text deck.title), some (.ofList Slide.toJson deck.slides)]

end Deck

namespace TextSpan

/-- The names of the fields, those of the properties among them. -/
def fields : List String := "text" :: RunStyle.fields

/-- Reads a text span. -/
def ofJson? (v : Value) : Option TextSpan :=
  match v with
  | .object _ => do
    if !v.isReadable then none
    let text :: style ← v.slots? fields | none
    return ⟨← Value.required Value.text? text, ← RunStyle.ofSlots? style⟩
  | _ => none

/-- Writes a text span. -/
def toJson (t : TextSpan) : Value := .record fields (some (.text t.text) :: t.style.slots)

end TextSpan

namespace PlacedText

/-- The names of the fields. -/
def fields : List String := ["runs", "align", "valign"]

/-- Reads the text of a shape. -/
def ofJson? (mode : Strictness) (v : Value) : Option PlacedText := do
  let [runs, align, valign] ← v.slots? fields | none
  return {
    runs := ← Value.required (Value.list? TextSpan.ofJson?) runs
    align := ← Value.required (Alignment.ofJson? mode) align
    valign := ← Value.required (VerticalAlign.ofJson? mode) valign }

/-- Writes the text of a shape. -/
def toJson (t : PlacedText) : Value :=
  .record fields [some (.ofList TextSpan.toJson t.runs), some t.align.toJson, some t.valign.toJson]

end PlacedText

namespace LineStyle

/-- The names of the fields. -/
def fields : List String := ["color", "width_pt"]

/-- Reads an outline. -/
def ofJson? (v : Value) : Option LineStyle := do
  let [color, widthPt] ← v.slots? fields | none
  return {
    color := ← Value.required Color.ofJson? color
    widthPt := ← Value.required Value.float32? widthPt }

/-- Writes an outline. -/
def toJson (line : LineStyle) : Value :=
  .record fields [some line.color.toJson, some (.ofFloat32 line.widthPt)]

end LineStyle

namespace PlacedShape

/-- The names of the fields, those of the frame among them. -/
def fields : List String := Frame.fields ++ ["kind", "fill", "line", "text"]

/-- Reads a shape. -/
def ofJson? (mode : Strictness) (v : Value) : Option PlacedShape := do
  let [x, y, w, h, kind, fill, line, text] ← v.slots? fields | none
  return {
    frame := ← Box.ofSlots? [x, y, w, h]
    kind := ← Value.required (ShapeKind.ofJson? mode) kind
    fill := ← Value.optional Color.ofJson? fill
    line := ← Value.optional LineStyle.ofJson? line
    text := ← Value.optional (PlacedText.ofJson? mode) text }

/-- The fields of a shape. -/
def slots (s : PlacedShape) : List (Option Value) :=
  Box.slots s.frame ++
    [some s.kind.toJson, s.fill.map Color.toJson, s.line.map LineStyle.toJson,
      s.text.map PlacedText.toJson]

/-- Writes a shape. -/
def toJson (s : PlacedShape) : Value := .record fields s.slots

end PlacedShape

namespace PlacedCard

/-- The names of the fields. -/
def fields : List String := ["item", "shapes"]

/-- Reads a card. -/
def ofJson? (mode : Strictness) (v : Value) : Option PlacedCard := do
  let [item, shapes] ← v.slots? fields | none
  return {
    item := ← Value.required (Placed.ofJson? GridItem.ofJson?) item
    shapes := ← Value.required (Value.list? (PlacedShape.ofJson? mode)) shapes }

/-- Writes a card. -/
def toJson (c : PlacedCard) : Value :=
  .record fields
    [some (Placed.toJson GridItem.toJson c.item), some (.ofList PlacedShape.toJson c.shapes)]

end PlacedCard

namespace PlacedGroup

/-- The names of the fields. -/
def fields : List String := ["cards", "connectors"]

/-- Reads a group. -/
def ofJson? (mode : Strictness) (v : Value) : Option PlacedGroup := do
  let [cards, connectors] ← v.slots? fields | none
  return {
    cards := ← Value.required (Value.list? (PlacedCard.ofJson? mode)) cards
    connectors := ← Value.orElse (Value.list? (PlacedShape.ofJson? mode)) [] connectors }

/-- The fields of a group. -/
def slots (g : PlacedGroup) : List (Option Value) :=
  [some (.ofList PlacedCard.toJson g.cards),
    Value.onlyIf (!g.connectors.isEmpty) (.ofList PlacedShape.toJson g.connectors)]

/-- Writes a group. -/
def toJson (g : PlacedGroup) : Value := .record fields g.slots

end PlacedGroup

namespace PlacedElement

/-- The names of the kinds of elements. -/
def kinds : List String := ["shape", "group"]

/-- Reads an element. -/
def ofJson? (v : Value) : Option PlacedElement :=
  match v.tagged? .strict kinds with
  | some ("shape", v) => (PlacedShape.ofJson? .lenient v).map .shape
  | some ("group", v) => (PlacedGroup.ofJson? .lenient v).map .group
  | _ => none

/-- Writes an element. -/
def toJson : PlacedElement → Value
  | .shape s => .tagged "shape" PlacedShape.fields s.slots
  | .group g => .tagged "group" PlacedGroup.fields g.slots

end PlacedElement

namespace PlacedSlide

/-- The names of the fields. -/
def fields : List String := ["index", "background", "elements"]

/-- Reads a slide. -/
def ofJson? (v : Value) : Option PlacedSlide := do
  let [index, background, elements] ← v.slots? fields | none
  return {
    index := ← Value.required (Value.natBelow? UInt64.size) index
    background := ← Value.optional Color.ofJson? background
    elements := ← Value.required (Value.list? PlacedElement.ofJson?) elements }

/-- Writes a slide. -/
def toJson (s : PlacedSlide) : Value :=
  .record fields
    [some (.ofNat s.index), s.background.map Color.toJson,
      some (.ofList PlacedElement.toJson s.elements)]

end PlacedSlide

namespace PlacedDeck

/-- The names of the fields. -/
def fields : List String := ["title", "slide_width_in", "slide_height_in", "slides"]

/-- Reads a deck, whose title may be left out. -/
def ofJson? (v : Value) : Option PlacedDeck := do
  let [title, width, height, slides] ← v.slots? fields | none
  return {
    title := ← Value.orElse Value.text? untitledDeck title
    width := ← Value.required Value.float32? width
    height := ← Value.required Value.float32? height
    slides := ← Value.required (Value.list? PlacedSlide.ofJson?) slides }

/-- Writes a deck. -/
def toJson (deck : PlacedDeck) : Value :=
  .record fields
    [some (.text deck.title), some (.ofFloat32 deck.width), some (.ofFloat32 deck.height),
      some (.ofList PlacedSlide.toJson deck.slides)]

/-- The deck that a text describes. -/
def parse (text : String) : Except BuildError PlacedDeck :=
  match (Value.parse? text).bind ofJson? with
  | some deck => .ok deck
  | none => .error .malformedText

end PlacedDeck

end Folio
