import Folio.Proofs.Deck.Demands

/-!
# The image of a deck

A placed deck shows its deck piece by piece: nothing of it is lost, shown twice or moved out of its
order. Frames of text and shapes keep their frames, every item of a group gets a card in the cell of
its position, and on the card every slot a shape. So the number of shapes follows from the deck.
-/

namespace Folio

/-- What a slot looks like on a card; text stands in a text box. -/
def Slot.shapeKind (s : Slot) : ShapeKind :=
  match s.content with
  | .shape kind _ => kind
  | _ => .textBox

namespace GridGroup

/-- A card shows the item at a position of a group: it lies in the cell of that position, and its
shapes are what lies behind the card, of the size of the cell, and then one shape for each slot. -/
def Shows (group : GridGroup) (frames : List Box) (entry : GridItem × Nat) (card : PlacedCard) :
    Prop :=
  ∃ x y behind slots, group.spec.anchor entry.2 = .ok (x, y) ∧
    card.item = ⟨entry.1, ⟨x, y, group.spec.cellWidth, group.spec.cellHeight⟩⟩ ∧
    card.shapes = behind ++ slots ∧
    behind.map (·.frame) = (if group.card.hasBackground then [card.item.frame] else []) ∧
    slots.map (·.frame) = frames.map (·.translate x y) ∧
    slots.map (·.kind) = group.card.slots.map Slot.shapeKind

/-- The cards of a group show its items in their order, and where the group has a connector there
is a shape for each pair of neighbours in one row. -/
structure MirroredBy (group : GridGroup) (placed : PlacedGroup) : Prop where
  cards : ∃ frames, group.card.slotFrames group.spec.cellWidth = .ok frames ∧
    List.Forall₂ (group.Shows frames) group.items.zipIdx placed.cards
  connectors : ∃ rows, group.spec.rowsFor group.items.length = .ok rows ∧
    placed.connectors.length =
      if group.card.connector.isSome then group.items.length - rows else 0

end GridGroup

/-- An element becomes one shape in its place or a group of cards. -/
inductive SlideElement.MirroredBy : SlideElement → PlacedElement → Prop where
  | text {t : TextFrame} {s : PlacedShape} (hframe : s.frame = t.frame) (hkind : s.kind = .textBox)
      (htexts : s.text.map (·.runs.map (·.text)) = some (t.runs.map (·.text))) :
      MirroredBy (.text t) (.shape s)
  | shape {spec : ShapeSpec} {s : PlacedShape} (hframe : s.frame = spec.frame)
      (hkind : s.kind = spec.kind) : MirroredBy (.shape spec) (.shape s)
  | grid {group : GridGroup} {placed : PlacedGroup} (h : group.MirroredBy placed) :
      MirroredBy (.grid group) (.group placed)

/-- A slide carries the position of the slide that it shows, and one element for each element. -/
structure Slide.MirroredBy (entry : Slide × Nat) (placed : PlacedSlide) : Prop where
  index : placed.index = entry.2
  elements : List.Forall₂ SlideElement.MirroredBy entry.1.elements placed.elements

/-- A placed deck has one slide for each slide. -/
def Deck.MirroredBy (deck : Deck) (placed : PlacedDeck) : Prop :=
  List.Forall₂ Slide.MirroredBy deck.slides.zipIdx placed.slides

variable {styling : Styling}

/-- Resolving a text keeps the words of its runs. -/
theorem PlacedText.texts_of_resolve {styleId : Option String} {overrides : StyleProperties}
    {runs : List Run} {valign : VerticalAlign} {text : PlacedText}
    (h : resolve styling styleId overrides runs valign = .ok text) :
    text.runs.map (·.text) = runs.map (·.text) := by
  obtain ⟨own, _, h⟩ := bind_eq_ok_iff.mp h
  obtain ⟨style, _, h⟩ := bind_eq_ok_iff.mp h
  obtain ⟨spans, hspans, h⟩ := bind_eq_ok_iff.mp h
  cases h
  refine map_eq_map_of_mapM (fun run span hspan => ?_) hspans
  obtain ⟨_, _, hspan⟩ := bind_eq_ok_iff.mp hspan
  cases hspan
  rfl

/-- A text frame becomes a text box with its words. -/
theorem TextFrame.mirroredBy_of_place {t : TextFrame} {s : PlacedShape}
    (h : t.place styling = .ok s) : SlideElement.MirroredBy (.text t) (.shape s) := by
  obtain ⟨text, htext, h⟩ := bind_eq_ok_iff.mp h
  cases h
  exact .text rfl rfl (congrArg some (PlacedText.texts_of_resolve htext))

/-- A shape becomes a shape of its kind in its frame. -/
theorem ShapeSpec.mirroredBy_of_place {spec : ShapeSpec} {s : PlacedShape}
    (h : spec.place styling = .ok s) : SlideElement.MirroredBy (.shape spec) (.shape s) := by
  obtain ⟨_, _, h⟩ := bind_eq_ok_iff.mp h
  obtain ⟨_, _, h⟩ := bind_eq_ok_iff.mp h
  cases h
  exact .shape rfl rfl

/-- A slot is shown in the frame that it is given. -/
theorem Slot.frame_kind_of_place {item : GridItem} {frame : Box} {s : Slot} {shape : PlacedShape}
    (h : s.place styling item frame = .ok shape) :
    shape.frame = frame ∧ shape.kind = s.shapeKind := by
  unfold place at h
  unfold shapeKind
  cases hcontent : s.content with
  | shape kind fill =>
    simp only [hcontent] at h
    obtain ⟨_, _, h⟩ := bind_eq_ok_iff.mp h
    cases h
    exact ⟨rfl, rfl⟩
  | _ =>
    simp only [hcontent] at h
    obtain ⟨_, _, h⟩ := bind_eq_ok_iff.mp h
    obtain ⟨_, _, h⟩ := bind_eq_ok_iff.mp h
    cases h
    exact ⟨rfl, rfl⟩

namespace CardTemplate

variable {card : CardTemplate} {p : Placed GridItem}

/-- What lies behind a card has the frame of its cell. -/
theorem frames_of_placeBackground {shapes : List PlacedShape}
    (h : card.placeBackground styling p = .ok shapes) :
    shapes.map (·.frame) = if card.hasBackground then [p.frame] else [] := by
  obtain ⟨fill, hfill, h⟩ := bind_eq_ok_iff.mp h
  rw [← isSome_backgroundKind hfill]
  cases hkind : card.shape.or (fill.map fun _ => ShapeKind.rectangle) with
  | some kind =>
    simp only [hkind] at h
    obtain ⟨line, _, h⟩ := bind_eq_ok_iff.mp h
    cases h
    rfl
  | none =>
    simp only [hkind] at h
    cases h
    rfl

/-- Slots are shown one by one, each in its frame from the corner of the cell. -/
theorem frames_kinds_of_placeSlots {framed : List (Slot × Box)} {shapes : List PlacedShape}
    (h : placeSlots styling p framed = .ok shapes) :
    shapes.map (·.frame) = (framed.map Prod.snd).map (·.translate p.frame.x p.frame.y) ∧
      shapes.map (·.kind) = (framed.map Prod.fst).map Slot.shapeKind := by
  induction framed generalizing shapes with
  | nil =>
    cases h
    exact ⟨rfl, rfl⟩
  | cons sf framed ih =>
    obtain ⟨shape, hshape, h⟩ := bind_eq_ok_iff.mp h
    obtain ⟨others, hothers, h⟩ := bind_eq_ok_iff.mp h
    cases h
    obtain ⟨hframe, hkind⟩ := Slot.frame_kind_of_place hshape
    obtain ⟨hframes, hkinds⟩ := ih hothers
    simp only [List.map_cons, hframe, hkind, hframes, hkinds, and_self]

/-- No slot is dropped, since each slot has a frame. -/
theorem shapes_of_placeCard {frames : List Box} (hlength : frames.length = card.slots.length)
    {placed : PlacedCard} (h : card.placeCard styling frames p = .ok placed) :
    ∃ behind slots, placed = ⟨p, behind ++ slots⟩ ∧
      behind.map (·.frame) = (if card.hasBackground then [p.frame] else []) ∧
      slots.map (·.frame) = frames.map (·.translate p.frame.x p.frame.y) ∧
      slots.map (·.kind) = card.slots.map Slot.shapeKind := by
  obtain ⟨behind, hbehind, h⟩ := bind_eq_ok_iff.mp h
  obtain ⟨slots, hslots, h⟩ := bind_eq_ok_iff.mp h
  cases h
  obtain ⟨hframes, hkinds⟩ := frames_kinds_of_placeSlots hslots
  refine ⟨behind, slots, rfl, frames_of_placeBackground hbehind, ?_, ?_⟩
  · rw [hframes, List.map_snd_zip (Nat.le_of_eq hlength)]
  · rw [hkinds, List.map_fst_zip (Nat.le_of_eq hlength.symm)]

end CardTemplate

namespace GridSpec

variable {spec : GridSpec Float32} {α : Type}

/-- Each item lies in the cell of its position. -/
theorem frames_of_place {i : Nat} {items : List α} {placed : List (Placed α)}
    (h : spec.place i items = .ok placed) :
    List.Forall₂ (fun (entry : α × Nat) p => ∃ x y, spec.anchor entry.2 = .ok (x, y) ∧
      p = ⟨entry.1, ⟨x, y, spec.cellWidth, spec.cellHeight⟩⟩) (items.zipIdx i) placed := by
  induction items generalizing i placed with
  | nil =>
    cases h
    exact .nil
  | cons a items ih =>
    obtain ⟨frame, hframe, h⟩ := bind_eq_ok_iff.mp h
    obtain ⟨others, hothers, h⟩ := bind_eq_ok_iff.mp h
    cases h
    obtain ⟨⟨x, y⟩, hanchor, hframe⟩ := bind_eq_ok_iff.mp hframe
    cases hframe
    exact .cons ⟨x, y, hanchor, rfl⟩ (ih hothers)

end GridSpec

/-- Among `cards.length` cards in a row of cells, one fewer shapes than cards lie between neighbours
but for each change to a new row. -/
theorem Connector.length_placeAll {spec : GridSpec Float32} (hcolumns : spec.columns ≠ 0)
    (c : Connector) {fill : Option Color} {i : Nat} {card : PlacedCard} {cards : List PlacedCard}
    {shapes : List PlacedShape} (h : c.placeAll fill spec i (card :: cards) = .ok shapes) :
    shapes.length + (i + cards.length) / spec.columns = cards.length + i / spec.columns := by
  induction cards generalizing i card shapes with
  | nil =>
    cases h
    simp
  | cons next rest ih =>
    obtain ⟨⟨col, row⟩, hcell, hrest⟩ := bind_eq_ok_iff.mp h
    obtain ⟨others, hothers, hshapes⟩ := bind_eq_ok_iff.mp hrest
    have hothers := ih hothers
    rw [GridSpec.cell_eq_ok hcolumns] at hcell
    cases hcell
    cases hshapes
    have hsum : i + 1 + rest.length = i + (rest.length + 1) := by omega
    rw [hsum] at hothers
    by_cases hcol : (i + 1) % spec.columns = 0
    · rw [Nat.succ_div_of_dvd (Nat.dvd_of_mod_eq_zero hcol)] at hothers
      rw [if_pos hcol, List.length_cons]
      omega
    · rw [Nat.succ_div_of_not_dvd fun hdvd => hcol (Nat.mod_eq_zero_of_dvd hdvd)] at hothers
      rw [if_neg hcol, List.length_cons, List.length_cons]
      omega

namespace GridGroup

/-- Shapes between neighbours are as many as the items less the rows that the items take up. -/
theorem length_of_placeConnectors {group : GridGroup} (hcolumns : group.spec.columns ≠ 0)
    {cards : List PlacedCard} {shapes : List PlacedShape}
    (h : group.placeConnectors styling cards = .ok shapes) :
    ∃ rows, group.spec.rowsFor cards.length = .ok rows ∧
      shapes.length = if group.card.connector.isSome then cards.length - rows else 0 := by
  refine ⟨_, if_neg hcolumns, ?_⟩
  unfold placeConnectors at h
  cases hconnector : group.card.connector with
  | none =>
    simp only [hconnector] at h
    cases h
    rfl
  | some c =>
    simp only [hconnector] at h
    obtain ⟨fill, _, h⟩ := bind_eq_ok_iff.mp h
    rw [Option.isSome_some, if_pos rfl]
    cases cards with
    | nil =>
      cases h
      exact (Nat.zero_sub _).symm
    | cons card cards =>
      have hlength := c.length_placeAll hcolumns h
      have hrows : (cards.length + 1 + group.spec.columns - 1) / group.spec.columns =
          cards.length / group.spec.columns + 1 := by
        rw [Nat.add_right_comm, Nat.add_sub_cancel,
          Nat.add_div_right _ (Nat.pos_of_ne_zero hcolumns)]
      rw [Nat.zero_add, Nat.zero_div, Nat.add_zero] at hlength
      rw [List.length_cons, hrows]
      omega

/-- A group that is placed mirrors the group that it was. -/
theorem mirroredBy_of_place {group : GridGroup} {placed : PlacedGroup}
    (h : group.place styling = .ok placed) : group.MirroredBy placed := by
  obtain ⟨items, hitems, h⟩ := bind_eq_ok_iff.mp h
  obtain ⟨frames, hframes, h⟩ := bind_eq_ok_iff.mp h
  obtain ⟨cards, hcards, h⟩ := bind_eq_ok_iff.mp h
  obtain ⟨connectors, hconnectors, h⟩ := bind_eq_ok_iff.mp h
  cases h
  obtain ⟨hcolumns, _⟩ := GridSpec.layout_eq_ok hitems
  obtain ⟨_, _, hplace⟩ := bind_eq_ok_iff.mp hitems
  have hshows : List.Forall₂ (group.Shows frames) group.items.zipIdx cards := by
    have hcards := (mapM_eq_ok_iff fun _ _ => Iff.rfl).mp hcards
    refine forall₂_through ?_ (GridSpec.frames_of_place hplace) hcards
    rintro entry p card ⟨x, y, hanchor, rfl⟩ hcard
    obtain ⟨behind, slots, rfl, hbehind, hslots, hkinds⟩ :=
      CardTemplate.shapes_of_placeCard (CardTemplate.length_slotFrames hframes) hcard
    exact ⟨x, y, behind, slots, hanchor, rfl, rfl, hbehind, hslots, hkinds⟩
  have hlength : cards.length = group.items.length := by
    rw [← hshows.length_eq, List.length_zipIdx]
  have hbetween := length_of_placeConnectors hcolumns hconnectors
  rw [hlength] at hbetween
  exact ⟨⟨frames, hframes, hshows⟩, hbetween⟩

end GridGroup

/-- An element that is placed mirrors the element that it was. -/
theorem SlideElement.mirroredBy_of_place {e : SlideElement} {placed : PlacedElement}
    (h : e.place styling = .ok placed) : e.MirroredBy placed := by
  cases e with
  | text frame =>
    obtain ⟨s, hs, h⟩ := bind_eq_ok_iff.mp h
    cases h
    exact TextFrame.mirroredBy_of_place hs
  | shape spec =>
    obtain ⟨s, hs, h⟩ := bind_eq_ok_iff.mp h
    cases h
    exact ShapeSpec.mirroredBy_of_place hs
  | grid group =>
    obtain ⟨g, hg, h⟩ := bind_eq_ok_iff.mp h
    cases h
    exact .grid (GridGroup.mirroredBy_of_place hg)

/-- A slide that is placed mirrors the slide that it was, under its number. -/
theorem Slide.mirroredBy_of_place {index : Nat} {s : Slide} {placed : PlacedSlide}
    (h : s.place styling index = .ok placed) : Slide.MirroredBy (s, index) placed := by
  obtain ⟨elements, helements, h⟩ := bind_eq_ok_iff.mp h
  obtain ⟨background, _, h⟩ := bind_eq_ok_iff.mp h
  cases h
  have hplaced := (mapM_eq_ok_iff fun _ _ => Iff.rfl).mp helements
  exact ⟨rfl, hplaced.imp fun _ _ => SlideElement.mirroredBy_of_place⟩

/-- The slides of a deck are placed in their order and numbered from where they begin. -/
theorem Deck.mirroredBy_of_placeSlides {index : Nat} {slides : List Slide}
    {placed : List PlacedSlide} (h : placeSlides styling index slides = .ok placed) :
    List.Forall₂ Slide.MirroredBy (slides.zipIdx index) placed := by
  induction slides generalizing index placed with
  | nil =>
    cases h
    exact .nil
  | cons s slides ih =>
    obtain ⟨slide, hslide, h⟩ := bind_eq_ok_iff.mp h
    obtain ⟨others, hothers, h⟩ := bind_eq_ok_iff.mp h
    cases h
    exact .cons (Slide.mirroredBy_of_place hslide) (ih hothers)

/-- The number of shapes that show a group: the slots and the background of each card, and the
shapes between neighbours, of which every row has one fewer than cards. -/
def GridGroup.shapeCount (group : GridGroup) : Except BuildError Nat := do
  let rows ← group.spec.rowsFor group.items.length
  let onCard := group.card.slots.length + if group.card.hasBackground then 1 else 0
  let between := if group.card.connector.isSome then group.items.length - rows else 0
  return group.items.length * onCard + between

/-- The number of shapes that show an element. -/
def SlideElement.shapeCount : SlideElement → Except BuildError Nat
  | .text _ => return 1
  | .shape _ => return 1
  | .grid group => group.shapeCount

/-- The number of shapes that show the elements of a list. -/
def SlideElement.shapeCountAll : List SlideElement → Except BuildError Nat
  | [] => return 0
  | e :: rest => return (← e.shapeCount) + (← shapeCountAll rest)

/-- The number of shapes that show a deck. -/
def Deck.shapeCount (deck : Deck) : Except BuildError Nat :=
  SlideElement.shapeCountAll (deck.slides.flatMap (·.elements))

namespace GridGroup

variable {group : GridGroup}

/-- A card has a shape for each slot and one more for its background. -/
theorem Shows.length_shapes {frames : List Box} {entry : GridItem × Nat} {card : PlacedCard}
    (h : group.Shows frames entry card) :
    card.shapes.length = group.card.slots.length + if group.card.hasBackground then 1 else 0 := by
  obtain ⟨x, y, behind, slots, _, _, hshapes, hbehind, _, hkinds⟩ := h
  have hbehind := congrArg List.length hbehind
  have hslots := congrArg List.length hkinds
  rw [List.length_map] at hbehind hslots
  rw [List.length_map] at hslots
  rw [hshapes, List.length_append, hbehind, hslots, Nat.add_comm]
  cases group.card.hasBackground <;> rfl

/-- The cards of a group have as many shapes as its items need. -/
theorem length_shapes_of_forall₂ {frames : List Box} {entries : List (GridItem × Nat)}
    {cards : List PlacedCard} (h : List.Forall₂ (group.Shows frames) entries cards) :
    (cards.flatMap (·.shapes)).length = entries.length *
      (group.card.slots.length + if group.card.hasBackground then 1 else 0) := by
  induction h with
  | nil => exact (Nat.zero_mul _).symm
  | cons hcard _ ih =>
    rw [List.flatMap_cons, List.length_append, hcard.length_shapes, ih, List.length_cons,
      Nat.succ_mul, Nat.add_comm]

/-- The shapes of a group are as many as were foretold. -/
theorem MirroredBy.shapeCount_eq {placed : PlacedGroup} (h : group.MirroredBy placed) :
    group.shapeCount = .ok placed.shapes.length := by
  obtain ⟨frames, _, hcards⟩ := h.cards
  obtain ⟨rows, hrows, hconnectors⟩ := h.connectors
  have hshapes := length_shapes_of_forall₂ hcards
  rw [List.length_zipIdx] at hshapes
  unfold shapeCount PlacedGroup.shapes PlacedGroup.cardShapes
  rw [hrows, List.length_append, hshapes, hconnectors]
  rfl

end GridGroup

namespace SlideElement

/-- The shapes of an element are as many as were foretold. -/
theorem MirroredBy.shapeCount_eq {e : SlideElement} {placed : PlacedElement}
    (h : e.MirroredBy placed) : e.shapeCount = .ok placed.shapes.length := by
  cases h with
  | text => rfl
  | shape => rfl
  | grid h => exact h.shapeCount_eq

/-- The shapes of some elements are as many as were foretold. -/
theorem shapeCountAll_of_forall₂ {elements : List SlideElement} {placed : List PlacedElement}
    (h : List.Forall₂ MirroredBy elements placed) :
    shapeCountAll elements = .ok (placed.flatMap (·.shapes)).length := by
  induction h with
  | nil => rfl
  | cons he _ ih =>
    rw [shapeCountAll, he.shapeCount_eq, ih, List.flatMap_cons, List.length_append]
    rfl

/-- The shapes of two lists of elements add up. -/
theorem shapeCountAll_append {before after : List SlideElement} {m n : Nat}
    (hbefore : shapeCountAll before = .ok m) (hafter : shapeCountAll after = .ok n) :
    shapeCountAll (before ++ after) = .ok (m + n) := by
  induction before generalizing m with
  | nil =>
    cases hbefore
    rw [List.nil_append, hafter, Nat.zero_add]
  | cons e before ih =>
    obtain ⟨k, hk, h⟩ := bind_eq_ok_iff.mp hbefore
    obtain ⟨rest, hrest, h⟩ := bind_eq_ok_iff.mp h
    cases h
    rw [List.cons_append, shapeCountAll, hk, ih hrest, Nat.add_assoc]
    rfl

end SlideElement

/-- The shapes of some slides are as many as were foretold. -/
theorem Slide.shapeCountAll_of_forall₂ {entries : List (Slide × Nat)} {placed : List PlacedSlide}
    (h : List.Forall₂ Slide.MirroredBy entries placed) :
    SlideElement.shapeCountAll (entries.flatMap (·.1.elements)) =
      .ok (placed.flatMap (·.shapes)).length := by
  induction h with
  | nil => rfl
  | cons hslide _ ih =>
    have helements := SlideElement.shapeCountAll_of_forall₂ hslide.elements
    rw [List.flatMap_cons, List.flatMap_cons, List.length_append]
    exact SlideElement.shapeCountAll_append helements ih

/-- The shapes of a deck are as many as were foretold. -/
theorem Deck.MirroredBy.shapeCount_eq {deck : Deck} {placed : PlacedDeck}
    (h : deck.MirroredBy placed) : deck.shapeCount = .ok placed.shapeCount := by
  unfold shapeCount PlacedDeck.shapeCount
  rw [← List.zipIdx_map_fst 0 deck.slides, List.flatMap_map]
  exact Slide.shapeCountAll_of_forall₂ h

/-- With whatever styling and on slides of whatever format a deck is placed, what is placed shows
the deck piece by piece, and the number of its shapes is the one that follows from the deck. -/
theorem Deck.place_mirrors_and_counts {format : DeckFormat} {deck : Deck} {placed : PlacedDeck}
    (h : deck.place styling format = .ok placed) :
    deck.MirroredBy placed ∧ deck.shapeCount = .ok placed.shapeCount := by
  obtain ⟨slides, hslides, h⟩ := bind_eq_ok_iff.mp h
  cases h
  have hslides : List.Forall₂ Slide.MirroredBy deck.slides.zipIdx slides :=
    mirroredBy_of_placeSlides hslides
  exact ⟨hslides, MirroredBy.shapeCount_eq hslides⟩

/-- Three people in two columns, each filled as a field says and joined to the next, between a
heading and a line. -/
def peopleDeck : Deck :=
  let person (index : Nat) (label : String) : GridItem :=
    GridItem.field { index, label } "kind" "text"
  let card : CardTemplate := {
    fillField := some "kind"
    slots := [
      (Slot.label 0.3).style "Quote",
      (Slot.shape .oval (some (.literal .white)) 0.2).placed 0.1 0.4]
    connector := some { kind := .rightArrow, frame := ⟨1, 0.5, 0.25, 0.25⟩ } }
  let people : GridGroup := {
    items := [person 0 "Ann", person 1 "Bob", person 2 "Eve"]
    spec := (GridSpec.ofCells 2 1 1).origin 0.5 0.5, card }
  { slides := [
      { elements := [.text (.ofText ⟨0, 0, 1, 1⟩ "Body" "People"), .grid people] },
      { elements := [.shape { frame := ⟨0, 0, 10, 0.1⟩, kind := .rectangle }] }] }

/-- Three cards of three shapes, one shape between neighbours, and two shapes that stand freely. -/
theorem Deck.place_mirrors_and_counts_peopleDeck :
    ∃ placed, peopleDeck.place ⟨Stylesheet.plainTheme, Stylesheet.letter⟩ .widescreen = .ok placed ∧
      peopleDeck.MirroredBy placed ∧ placed.shapeCount = 12 := by
  obtain ⟨placed, hplaced⟩ : ∃ placed,
      peopleDeck.place ⟨Stylesheet.plainTheme, Stylesheet.letter⟩ .widescreen = .ok placed :=
    exists_eq_ok_of_isOk (by decide +kernel)
  obtain ⟨hmirrored, hcount⟩ := place_mirrors_and_counts hplaced
  have htwelve : peopleDeck.shapeCount = .ok 12 := by decide +kernel
  rw [htwelve] at hcount
  exact ⟨placed, hplaced, hmirrored, (Except.ok.inj hcount).symm⟩

end Folio
