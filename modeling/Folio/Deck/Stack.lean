import Folio.Deck.Card

/-!
# Stacking slots

The frames of the slots of a card, from the corner of the card. Slots that flow are stacked from
the top padding down, each below the margin of its own, and take the width between the side
paddings unless they have one; a card that is too small overflows. Slots at an offset take the
rest of the width of the card and leave the stack alone. No zero of these frames has a sign.
-/

namespace Folio

namespace CardTemplate

/-- The measures of a slot in the order in which they are checked. -/
def slotMeasures (s : Slot) : List (SlotMeasure × Float32) :=
  (.height, s.height) :: ((s.width.map fun w => (SlotMeasure.width, w)).toList ++
    match s.placement with
    | .flow marginTop => [(.marginTop, marginTop)]
    | .absolute x y => [(.x, x), (.y, y)])

/-- The measures of a card in the order in which they are checked. -/
def measures (card : CardTemplate) : List (CardMeasure × Float32) :=
  [(.paddingTop, card.padding.top), (.paddingRight, card.padding.right),
    (.paddingBottom, card.padding.bottom), (.paddingLeft, card.padding.left)] ++
  card.slots.zipIdx.flatMap fun (s, position) =>
    (slotMeasures s).map fun (m, value) => (.slot position m, value)

/-- Checks that the measures of a card are in range. -/
def validate (card : CardTemplate) : Except BuildError Unit :=
  match card.measures.find? fun m => !m.1.requirement.holds m.2 with
  | some (measure, value) => .error (.cardMeasure measure value)
  | none => .ok ()

end CardTemplate

/-- The greater of two lengths; of a length and what is not a number the length. -/
def greater (a b : Float32) : Float32 :=
  if a.isNaN then b else if b.isNaN then a else if a < b then b else a

namespace Insets

/-- The width between the side paddings of a card; none is left when they meet. -/
def innerWidth (padding : Insets) (cellWidth : Float32) : Float32 :=
  let sides := padding.left + padding.right
  greater (greater cellWidth sides - sides) 0

end Insets

namespace Slot

/-- The frames of slots below a stack that ends at `offset`. -/
def stack (left inner cellWidth : Float32) : Float32 → List Slot → List Box
  | _, [] => []
  | offset, s :: rest =>
    match s.placement with
    | .flow marginTop =>
      ⟨left, offset + marginTop, s.width.getD inner, s.height⟩ ::
        stack left inner cellWidth (offset + (marginTop + s.height)) rest
    | .absolute x y =>
      ⟨x, y, s.width.getD (greater (cellWidth - x) 0), s.height⟩ ::
        stack left inner cellWidth offset rest

end Slot

/-- A length whose zero has no sign. -/
def unsignedZero (x : Float32) : Float32 := if x == 0 then 0 else x

/-- A frame in whose measures zero has no sign. -/
def Box.unsignedZeros (b : Box) : Box :=
  ⟨unsignedZero b.x, unsignedZero b.y, unsignedZero b.w, unsignedZero b.h⟩

namespace CardTemplate

/-- The frames of the slots of a card in a cell of some width. -/
def frames (card : CardTemplate) (cellWidth : Float32) : List Box :=
  (Slot.stack card.padding.left (card.padding.innerWidth cellWidth) cellWidth card.padding.top
    card.slots).map Box.unsignedZeros

/-- The frames of the slots of a card whose measures are in range. -/
def slotFrames (card : CardTemplate) (cellWidth : Float32) : Except BuildError (List Box) := do
  card.validate
  return card.frames cellWidth

end CardTemplate

end Folio
