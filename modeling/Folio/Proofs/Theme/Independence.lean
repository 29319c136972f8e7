import Folio.Deck.Placement
import Folio.Document.Styling
import Folio.Proofs.Deck.Demands
import Folio.Proofs.Theme.Themeless

/-!
# Independence of the theme

Two themes with the same roles build the same, up to what a theme decides. Where a look-up decides
whether there is anything at all, as a fill does for the background of a card, only whether it
succeeds matters, and that is a matter of roles. Main statement:
`Stylesheet.build_independent_of_theme`.
-/

namespace Folio

variable {one other : Theme} {sheet : Stylesheet}

section

variable (h : one.SameRoles other)

include h

/-- Themes with the same roles style runs alike. -/
theorem Run.styled_alike (around : Surroundings) (r : Run) :
    Alike StyledRun.themeless (r.styled ⟨one, sheet⟩ around) (r.styled ⟨other, sheet⟩ around) :=
  (Styling.resolveRun_alike h around r.styleId r.overrides).map fun _ _ hstyle =>
    congrArg (StyledRun.mk r.text) hstyle

theorem Paragraph.styled_alike (around : Surroundings) (p : Paragraph) :
    Alike StyledParagraph.themeless (p.styled ⟨one, sheet⟩ around)
      (p.styled ⟨other, sheet⟩ around) := by
  refine .after (Styling.declared ⟨one, sheet⟩ p.styleId p.overrides) fun own => ?_
  refine (Alike.mapM (Run.styled_alike h (own.above around)) p.runs).bind fun runs runs' hruns => ?_
  refine (Styling.settle_alike h (own.above around)).map fun style style' hstyle => ?_
  exact congrArg₂ (StyledParagraph.mk p.styleId) hstyle hruns

namespace TocRequest

theorem entry_alike (e : OutlineEntry) :
    Alike TocEntry.themeless (entry ⟨one, sheet⟩ e) (entry ⟨other, sheet⟩ e) := by
  refine .after (Styling.declared ⟨one, sheet⟩ (sheet.registered? (tocStyleId e.level)) {})
    fun own => ?_
  exact (Styling.settle_alike h own).map fun _ _ hstyle =>
    congrArg (TocEntry.mk e.level e.text) hstyle

theorem styled_alike (outline : List OutlineEntry) (around : Surroundings) (toc : TocRequest) :
    Alike StyledToc.themeless (toc.styled ⟨one, sheet⟩ outline around)
      (toc.styled ⟨other, sheet⟩ outline around) := by
  have hparagraph (text : String) : Alike StyledParagraph.themeless
      ((titleParagraph ⟨one, sheet⟩ text).styled ⟨one, sheet⟩ around)
      ((titleParagraph ⟨other, sheet⟩ text).styled ⟨other, sheet⟩ around) :=
    Paragraph.styled_alike h around (titleParagraph ⟨one, sheet⟩ text)
  refine (Alike.option_mapM hparagraph toc.title).bind fun title title' htitle => ?_
  refine (Alike.mapM (entry_alike h) _).map fun entries entries' hentries => ?_
  exact congrArg₂ (StyledToc.mk · · toc.hyperlink) htitle hentries

end TocRequest

end

mutual

/-- Themes with the same roles style blocks alike. -/
theorem Block.styled_alike (h : one.SameRoles other) (outline : List OutlineEntry)
    (around : Surroundings) (b : Block) :
    Alike StyledBlock.themeless (b.styled ⟨one, sheet⟩ outline around)
      (b.styled ⟨other, sheet⟩ outline around) := by
  cases b with
  | heading level p =>
    refine (p.styled_alike h around).map fun p p' hp => ?_
    exact congrArg (StyledBlock.heading level) hp
  | paragraph p =>
    exact (p.styled_alike h around).map fun _ _ hp => congrArg StyledBlock.paragraph hp
  | run r => exact (r.styled_alike h around).map fun _ _ hr => congrArg StyledBlock.run hr
  | table t =>
    obtain ⟨styleId, rows⟩ := t
    refine .after (Styling.declared ⟨one, sheet⟩ styleId {}) fun own => ?_
    exact (rows_styled_alike h outline (own.above around) rows).map fun _ _ hrows =>
      congrArg StyledBlock.table hrows
  | pageBreak => exact .refl _ _
  | toc request =>
    exact (request.styled_alike h outline around).map fun _ _ htoc => congrArg StyledBlock.toc htoc
  termination_by structural b

theorem blocks_styled_alike (h : one.SameRoles other) (outline : List OutlineEntry)
    (around : Surroundings) (blocks : List Block) :
    Alike themelessBlocks (styledBlocks ⟨one, sheet⟩ outline around blocks)
      (styledBlocks ⟨other, sheet⟩ outline around blocks) := by
  cases blocks with
  | nil => exact .refl _ _
  | cons b rest =>
    refine (Block.styled_alike h outline around b).bind fun b b' hb => ?_
    exact (blocks_styled_alike h outline around rest).map fun _ _ hrest =>
      congrArg₂ List.cons hb hrest
  termination_by structural blocks

theorem cells_styled_alike (h : one.SameRoles other) (outline : List OutlineEntry)
    (around : Surroundings) (cells : List (Cell Block ColorRef)) :
    Alike themelessCells (styledCells ⟨one, sheet⟩ outline around cells)
      (styledCells ⟨other, sheet⟩ outline around cells) := by
  cases cells with
  | nil => exact .refl _ _
  | cons c rest =>
    obtain ⟨blocks, shading⟩ := c
    refine (blocks_styled_alike h outline around blocks).bind fun blocks blocks' hblocks => ?_
    have hshading := Alike.option_mapM (ColorRef.resolve_alike h) shading
    refine hshading.bind fun shading shading' hshading => ?_
    refine (cells_styled_alike h outline around rest).map fun rest rest' hrest => ?_
    exact congrArg₂ List.cons (congrArg₂ Cell.mk hblocks hshading) hrest
  termination_by structural cells

theorem rows_styled_alike (h : one.SameRoles other) (outline : List OutlineEntry)
    (around : Surroundings) (rows : List (Row Block ColorRef)) :
    Alike themelessRows (styledRows ⟨one, sheet⟩ outline around rows)
      (styledRows ⟨other, sheet⟩ outline around rows) := by
  cases rows with
  | nil => exact .refl _ _
  | cons r rest =>
    obtain ⟨cells, header⟩ := r
    refine (cells_styled_alike h outline around cells).bind fun cells cells' hcells => ?_
    refine (rows_styled_alike h outline around rest).map fun rest rest' hrest => ?_
    exact congrArg₂ List.cons (congrArg (Row.mk · header) hcells) hrest
  termination_by structural rows

end

section

variable (h : one.SameRoles other)

include h

/-- Themes with the same roles style documents alike. -/
theorem Document.styled_alike (doc : Document) :
    Alike StyledDocument.themeless (doc.styled ⟨one, sheet⟩) (doc.styled ⟨other, sheet⟩) := by
  have hsection (s : Section) : Alike StyledSection.themeless
      (s.styled ⟨one, sheet⟩ doc.outline) (s.styled ⟨other, sheet⟩ doc.outline) :=
    (blocks_styled_alike h doc.outline {} s.blocks).map fun _ _ hblocks =>
      congrArg (StyledSection.mk s.page) hblocks
  exact (Alike.mapM hsection doc.sections).map fun _ _ hsections =>
    congrArg (StyledDocument.mk doc.title "" sheet.styles.values) hsections

theorem ColorRef.resolveAny_alike (c : Option ColorRef) :
    Alike (Option.map Color.themeless) (resolveAny one c) (resolveAny other c) :=
  .option_mapM (resolve_alike h) c

theorem LineSpec.resolve_alike (line : Option LineSpec) :
    Alike (Option.map LineStyle.themeless) (line.mapM (resolve one)) (line.mapM (resolve other)) :=
  .option_mapM (fun l => (l.color.resolve_alike h).map fun _ _ hcolor =>
    congrArg (LineStyle.mk · l.widthPt) hcolor) line

theorem PlacedText.span_alike (around : StyleProperties) (run : Run) :
    Alike TextSpan.themeless (span ⟨one, sheet⟩ around run) (span ⟨other, sheet⟩ around run) :=
  (Styling.resolveRun_alike h around run.styleId run.overrides).map fun _ _ hstyle =>
    congrArg (TextSpan.mk run.text) (congrArg EffectiveStyle.run hstyle)

theorem PlacedText.resolve_alike (styleId : Option String) (overrides : StyleProperties)
    (runs : List Run) (valign : VerticalAlign) :
    Alike PlacedText.themeless (resolve ⟨one, sheet⟩ styleId overrides runs valign)
      (resolve ⟨other, sheet⟩ styleId overrides runs valign) := by
  refine .after (Styling.declared ⟨one, sheet⟩ styleId overrides) fun own => ?_
  refine (Styling.settle_alike h own).bind fun style style' hstyle => ?_
  refine (Alike.mapM (span_alike h own) runs).map fun spans spans' hspans => ?_
  exact congrArg₂ (PlacedText.mk · · valign) hspans
    (congrArg (·.paragraph.alignment) hstyle)

theorem TextFrame.place_alike (t : TextFrame) :
    Alike PlacedShape.themeless (t.place ⟨one, sheet⟩) (t.place ⟨other, sheet⟩) :=
  (PlacedText.resolve_alike h t.styleId t.overrides t.runs t.valign).map fun _ _ htext =>
    congrArg (PlacedShape.mk t.frame .textBox none none ∘ some) htext

theorem ShapeSpec.place_alike (s : ShapeSpec) :
    Alike PlacedShape.themeless (s.place ⟨one, sheet⟩) (s.place ⟨other, sheet⟩) := by
  refine (ColorRef.resolveAny_alike h s.fill).bind fun fill fill' hfill => ?_
  refine (LineSpec.resolve_alike h s.line).map fun line line' hline => ?_
  exact congrArg₂ (PlacedShape.mk s.frame s.kind · · none) hfill hline

theorem Slot.place_alike (item : GridItem) (frame : Box) (s : Slot) :
    Alike PlacedShape.themeless (s.place ⟨one, sheet⟩ item frame)
      (s.place ⟨other, sheet⟩ item frame) := by
  unfold place
  cases s.content with
  | shape kind fill =>
    refine (ColorRef.resolveAny_alike h fill).map fun fill fill' hfill => ?_
    exact congrArg (PlacedShape.mk frame kind · none none) hfill
  | _ =>
    refine .after (s.textFor item) fun text => ?_
    refine (PlacedText.resolve_alike h s.styleId s.overrides _ s.valign).map fun _ _ htext => ?_
    exact congrArg (PlacedShape.mk frame .textBox none none ∘ some) htext

namespace CardTemplate

theorem resolveFill_alike (card : CardTemplate) (item : GridItem) :
    Alike (Option.map Color.themeless) (card.resolveFill ⟨one, sheet⟩ item)
      (card.resolveFill ⟨other, sheet⟩ item) := by
  unfold resolveFill
  cases card.fillField with
  | none => exact ColorRef.resolveAny_alike h card.fill
  | some name =>
    dsimp only
    cases item.get? name with
    | none => exact .refl _ _
    | some role => exact (Theme.color_alike h role).map fun _ _ hcolor => congrArg some hcolor

/-- Whether anything lies behind a card depends on whether there is a fill, not on its colour. -/
theorem placeBackground_alike (card : CardTemplate) (p : Placed GridItem) :
    Alike (List.map PlacedShape.themeless) (card.placeBackground ⟨one, sheet⟩ p)
      (card.placeBackground ⟨other, sheet⟩ p) := by
  refine (card.resolveFill_alike h p.item).bind fun fill fill' hfill => ?_
  have hkind := congrArg (Option.map fun _ => ShapeKind.rectangle) hfill
  rw [Option.map_map, Option.map_map] at hkind
  change fill.map (fun _ => ShapeKind.rectangle) = fill'.map (fun _ => .rectangle) at hkind
  rw [hkind]
  cases card.shape.or (fill'.map fun _ => ShapeKind.rectangle) with
  | none => exact .refl _ _
  | some kind =>
    refine (LineSpec.resolve_alike h card.line).map fun line line' hline => ?_
    exact congrArg₂ (fun fill line => [PlacedShape.mk p.frame kind fill line none]) hfill hline

theorem placeSlots_alike (p : Placed GridItem) (framed : List (Slot × Box)) :
    Alike (List.map PlacedShape.themeless) (placeSlots ⟨one, sheet⟩ p framed)
      (placeSlots ⟨other, sheet⟩ p framed) := by
  induction framed with
  | nil => exact .refl _ _
  | cons sf framed ih =>
    refine (Slot.place_alike h p.item _ sf.1).bind fun shape shape' hshape => ?_
    exact ih.map fun _ _ hshapes => congrArg₂ List.cons hshape hshapes

theorem placeCard_alike (card : CardTemplate) (frames : List Box) (p : Placed GridItem) :
    Alike PlacedCard.themeless (card.placeCard ⟨one, sheet⟩ frames p)
      (card.placeCard ⟨other, sheet⟩ frames p) := by
  refine (card.placeBackground_alike h p).bind fun background background' hbackground => ?_
  refine (placeSlots_alike h p (card.slots.zip frames)).map fun slots slots' hslots => ?_
  have hshapes := congrArg₂ List.append hbackground hslots
  simp only [PlacedCard.themeless, List.map_append]
  exact congrArg (PlacedCard.mk p) hshapes

end CardTemplate

end

/-- Cards lie in the same places whatever their colours, and so do the shapes between them. -/
theorem Connector.placeAll_alike {spec : GridSpec Float32} {fill fill' : Option Color}
    (hfill : fill.map Color.themeless = fill'.map Color.themeless) (c : Connector) (i : Nat)
    {cards cards' : List PlacedCard}
    (hcards : cards.map PlacedCard.themeless = cards'.map PlacedCard.themeless) :
    Alike (List.map PlacedShape.themeless) (c.placeAll fill spec i cards)
      (c.placeAll fill' spec i cards') := by
  fun_induction c.placeAll fill spec i cards generalizing cards' with
  | case1 =>
    obtain rfl := List.map_eq_nil_iff.mp hcards.symm
    exact .refl _ _
  | case2 =>
    obtain ⟨_, rfl, _⟩ := List.map_eq_singleton_iff.mp hcards.symm
    exact .refl _ _
  | case3 i card next rest ih =>
    obtain ⟨card', _, rfl, hcard, hnext⟩ := List.map_eq_cons_iff.mp hcards.symm
    obtain ⟨next', rest', rfl, _⟩ := List.map_eq_cons_iff.mp hnext
    refine .after (spec.cell (i + 1)) fun cell => ?_
    refine (ih hnext.symm).map fun others others' hothers => ?_
    have hitem : card'.item = card.item := congrArg (fun c => c.item) hcard
    have hshape : (c.place fill card).themeless = (c.place fill' card').themeless := by
      simp only [place, PlacedShape.themeless, hfill, hitem]
    split
    · exact hothers
    · exact congrArg₂ List.cons hshape hothers

section

variable (h : one.SameRoles other)

include h

/-- Themes with the same roles place groups alike. -/
theorem GridGroup.place_alike (group : GridGroup) :
    Alike PlacedGroup.themeless (group.place ⟨one, sheet⟩) (group.place ⟨other, sheet⟩) := by
  refine .after (group.spec.layout group.items) fun items => ?_
  refine .after (group.card.slotFrames group.spec.cellWidth) fun frames => ?_
  refine (Alike.mapM (group.card.placeCard_alike h frames) items).bind fun cards cards' hcards => ?_
  have hconnectors : Alike (List.map PlacedShape.themeless)
      (group.placeConnectors ⟨one, sheet⟩ cards) (group.placeConnectors ⟨other, sheet⟩ cards') := by
    unfold placeConnectors
    cases group.card.connector with
    | none => exact .refl _ _
    | some c =>
      refine (ColorRef.resolveAny_alike h c.fill).bind fun fill fill' hfill => ?_
      exact c.placeAll_alike hfill 0 hcards
  exact hconnectors.map fun _ _ hconnectors => congrArg₂ PlacedGroup.mk hcards hconnectors

theorem SlideElement.place_alike (element : SlideElement) :
    Alike PlacedElement.themeless (element.place ⟨one, sheet⟩) (element.place ⟨other, sheet⟩) := by
  cases element with
  | text frame => exact (frame.place_alike h).map fun _ _ hs => congrArg PlacedElement.shape hs
  | shape spec => exact (spec.place_alike h).map fun _ _ hs => congrArg PlacedElement.shape hs
  | grid group => exact (group.place_alike h).map fun _ _ hg => congrArg PlacedElement.group hg

theorem Slide.place_alike (index : Nat) (s : Slide) :
    Alike PlacedSlide.themeless (s.place ⟨one, sheet⟩ index) (s.place ⟨other, sheet⟩ index) := by
  refine (Alike.mapM (SlideElement.place_alike h) s.elements).bind fun elements elements' hs => ?_
  exact (ColorRef.resolveAny_alike h s.background).map fun _ _ hbackground =>
    congrArg₂ (PlacedSlide.mk index) hbackground hs

theorem Deck.placeSlides_alike (index : Nat) (slides : List Slide) :
    Alike (List.map PlacedSlide.themeless) (placeSlides ⟨one, sheet⟩ index slides)
      (placeSlides ⟨other, sheet⟩ index slides) := by
  induction slides generalizing index with
  | nil => exact .refl _ _
  | cons s slides ih =>
    refine (s.place_alike h index).bind fun s s' hs => ?_
    exact (ih (index + 1)).map fun _ _ hslides => congrArg₂ List.cons hs hslides

/-- Themes with the same roles place decks alike. -/
theorem Deck.place_alike (format : DeckFormat) (deck : Deck) :
    Alike PlacedDeck.themeless (deck.place ⟨one, sheet⟩ format)
      (deck.place ⟨other, sheet⟩ format) :=
  (placeSlides_alike h 0 deck.slides).map fun _ _ hslides =>
    congrArg (PlacedDeck.mk _ format.width format.height) hslides

end

/-- Whichever of two themes with the same roles a stylesheet is bound to, binding ends alike, and if
it succeeds then every document and every deck is refused with the same error or comes out the same
but for the colours, the faces and the name of the theme. -/
theorem Stylesheet.build_independent_of_theme (h : one.SameRoles other) (sheet : Stylesheet) :
    Alike (fun _ => ()) (sheet.bind one) (sheet.bind other) ∧
      ∀ s t, sheet.bind one = .ok s → sheet.bind other = .ok t →
        (∀ doc : Document, Alike StyledDocument.themeless (doc.styled s) (doc.styled t)) ∧
        ∀ (format : DeckFormat) (deck : Deck),
          Alike PlacedDeck.themeless (deck.place s format) (deck.place t format) := by
  refine ⟨sheet.bind_alike h, fun s t hs ht => ?_⟩
  obtain ⟨rfl, _⟩ := bind_eq_ok_iff_checks.mp hs
  obtain ⟨rfl, _⟩ := bind_eq_ok_iff_checks.mp ht
  exact ⟨Document.styled_alike h, Deck.place_alike h⟩

namespace Stylesheet

/-- A theme with the roles of the plain one, in white and without serifs. -/
def nightTheme : Theme := ⟨"night", .ofList [("text", .white)], .ofList [("body", "Sans")]⟩

theorem sameRoles_nightTheme : plainTheme.SameRoles nightTheme where
  colors role := by
    show (if _ = role then _ else _ : Option Color).isSome =
      (if _ = role then _ else _ : Option Color).isSome
    split <;> rfl
  fonts role := by
    show (if _ = role then _ else _ : Option String).isSome =
      (if _ = role then _ else _ : Option String).isSome
    split <;> rfl

/-- A card on a coloured slide, filled as its item says. -/
def filledCard : Deck :=
  let item : GridItem := GridItem.field { index := 0, label := "Ann" } "kind" "text"
  let card : CardTemplate := { fillField := some "kind", slots := [(Slot.label 0.3).style "Quote"] }
  { slides := [{
      background := some (.role "text")
      elements := [.grid { items := [item], spec := .ofCells 3 1 1, card }] }] }

/-- The background shows the theme, and nothing is left to show it without colours and faces. -/
theorem build_independent_of_theme_filledCard :
    plainTheme.SameRoles nightTheme ∧ ∃ s t deck deck', letter.bind plainTheme = .ok s ∧
      letter.bind nightTheme = .ok t ∧ filledCard.place s .widescreen = .ok deck ∧
      filledCard.place t .widescreen = .ok deck' ∧ deck ≠ deck' ∧
      deck.themeless = deck'.themeless := by
  have hsame := sameRoles_nightTheme
  obtain ⟨s, hs⟩ : ∃ s, letter.bind plainTheme = .ok s :=
    exists_eq_ok_of_isOk (by decide +kernel)
  obtain ⟨t, ht⟩ : ∃ t, letter.bind nightTheme = .ok t :=
    exists_eq_ok_of_isOk (by decide +kernel)
  obtain ⟨_, hbuild⟩ := build_independent_of_theme hsame letter
  obtain ⟨_, hplace⟩ := hbuild s t hs ht
  have hdecks := hplace .widescreen filledCard
  obtain ⟨rfl, _⟩ := bind_eq_ok_iff_checks.mp hs
  obtain ⟨rfl, _⟩ := bind_eq_ok_iff_checks.mp ht
  have hblack : (filledCard.place ⟨plainTheme, letter⟩ .widescreen).map
      (fun deck => deck.slides.map (·.background)) = .ok [some .black] := by decide +kernel
  have hwhite : (filledCard.place ⟨nightTheme, letter⟩ .widescreen).map
      (fun deck => deck.slides.map (·.background)) = .ok [some .white] := by decide +kernel
  cases hdeck : filledCard.place ⟨plainTheme, letter⟩ .widescreen with
  | error e =>
    rw [hdeck] at hblack
    cases hblack
  | ok deck =>
    cases hdeck' : filledCard.place ⟨nightTheme, letter⟩ .widescreen with
    | error e =>
      rw [hdeck'] at hwhite
      cases hwhite
    | ok deck' =>
      rw [hdeck] at hblack hdecks
      rw [hdeck'] at hwhite hdecks
      refine ⟨hsame, _, _, deck, deck', hs, ht, hdeck, hdeck', fun heq => ?_, Except.ok.inj hdecks⟩
      rw [heq, hwhite] at hblack
      exact absurd hblack (by decide +kernel)

end Stylesheet

end Folio
