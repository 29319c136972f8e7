import Folio.Proofs.Deck.SourceRoundTrip
import Folio.Proofs.Document.StyledRoundTrip

/-!
# Reading what was written

Documents, decks and styled documents survive being written and read. A text that nests too deep
is refused as a whole, so what nests without bound is read only as far as its text keeps the limit.
-/

namespace Folio

open Json

/-- Whichever way the text is spaced, documents, decks and styled documents are read from it as
they were, if their lengths are finite and read from their numerals as they were, their colours
are colours of texts, and their positions fit into a machine word. Tables in cells let the texts
of documents nest to any depth, and these texts have to keep the limit; the texts of decks always
do. -/
theorem read_written (spacing : Spacing) :
    (∀ doc : Document, (∀ x ∈ doc.scalars, x.Portable) → doc.toJson.depth ≤ Value.nestingLimit →
      (Value.parse? (doc.toJson.print spacing)).bind Document.ofJson? = some doc) ∧
    (∀ deck : Deck, (∀ x ∈ deck.scalars, x.Portable) →
      (Value.parse? (deck.toJson.print spacing)).bind Deck.ofJson? = some deck) ∧
    ∀ doc : StyledDocument, (∀ x ∈ doc.scalars, x.Portable) →
      doc.toJson.depth ≤ Value.nestingLimit →
      (Value.parse? (doc.toJson.print spacing)).bind StyledDocument.ofJson? = some doc := by
  refine ⟨fun doc h hdepth => ?_, fun deck h => ?_, fun doc h hdepth => ?_⟩
  · exact (Document.faithful h).reads_print hdepth spacing
  · exact (Deck.faithful h).reads_print (by decide) spacing
  · exact (StyledDocument.faithful h).reads_print hdepth spacing

/-- A table in a cell of a table, with a translucent shading and overrides of one kind each. -/
def nestedTables : Document :=
  let shaded : Cell Block ColorRef := {
    blocks := [.run { text := "\"Ωμέγα\"\n", overrides := StyleProperties.size {} 10.5 }]
    shading := some (.literal (Color.ofBytes 17 34 51 128)) }
  let centered : Paragraph := {
    styleId := some "Lead", overrides := StyleProperties.align {} .center
    runs := [{ text := "", styleId := some "Mark" }] }
  { title := "Nested"
    sections := [{
      page := .a4Landscape
      blocks := [
        .heading 0 centered, .toc { title := some "Contents", hyperlink := false }, .pageBreak,
        .table {
          styleId := some "Grid"
          rows := [{
            header := true
            cells := [{
              blocks := [.table { rows := [{ cells := [shaded, {}] }] }, .paragraph centered]
              shading := some (.role "paper") }] }] }] }] }

/-- A card with a slot of every kind beside a frame of text and an outlined shape. -/
def everySlot : Deck :=
  let frame : Box := ⟨0.1, -2.75, 3, 1e-7⟩
  let card : CardTemplate := {
    shape := some .oval, fillField := some "kind", line := some ⟨.role "ink", 0.75⟩
    padding := ⟨0.1, 0.2, 0.3, 0⟩
    slots := [
      .label 0.3, (Slot.field "kind" 0.3).flowing 0.05,
      ((Slot.literal "\x7b\x7d" 0.2).placed 0.1 0.2).ofWidth 1.5,
      (Slot.template "" 1).aligned .middle,
      (Slot.shape .rightArrow (some (.literal .white)) 0.4).override
        (StyleProperties.bold {} false)]
    connector := some { kind := .rightArrow, frame, fill := some (.role "ink") } }
  { slides := [
      { background := some (.literal (Color.ofSolidBytes 255 170 0)) },
      { elements := [
          .text { frame, overrides := StyleProperties.font {} (.face "Sans"), runs := [] },
          .shape { frame, kind := .roundedRectangle, line := some ⟨.literal .black, 0.5⟩ },
          .grid {
            items := [GridItem.field { index := 7, label := "Ann" } "kind" ""]
            spec := ⟨2, 1.5, 1, 0.1, 0.1, 0, 0.3⟩
            card }] }] }

/-- A styled table in a cell of a table, with a table of contents and two styles. -/
def styledTables : StyledDocument :=
  let style : EffectiveStyle := {
    run := {
      font := "Serif", sizePt := 10.5, bold := true, italic := false, underline := false
      color := Color.ofBytes 17 34 51 128 }
    paragraph := {
      alignment := .justify, spacingBeforePt := 0.1, spacingAfterPt := 0, outlineLevel := some 3 } }
  let p : StyledParagraph := { styleId := none, style, runs := [⟨"Ωμέγα", style⟩] }
  let shaded : Cell StyledBlock Color := { blocks := [.run ⟨"", style⟩], shading := some .black }
  let inner : StyledBlock := .table [{ cells := [shaded, {}] }]
  { title := "Nested"
    theme := "plain"
    styles := [
      { id := "Lead", basedOn := some "Base", properties := StyleProperties.size {} 14 },
      { id := "Base", name := some "Base", next := some "Lead" }]
    sections := [{
      page := .a4
      blocks := [
        .heading 2 p, .paragraph p, .pageBreak,
        .table [{ cells := [{ blocks := [inner] }], header := true }],
        .toc { title := some p, entries := [⟨2, "Ωμέγα", style⟩], hyperlink := true }] }] }

/-- Tables in tables, slots of every kind and properties in effect are read as they were. -/
theorem read_written_nestedTables :
    (∀ x ∈ nestedTables.scalars, x.Portable) ∧
    (Value.parse? (nestedTables.toJson.print .pretty)).bind Document.ofJson? = some nestedTables ∧
    (∀ x ∈ everySlot.scalars, x.Portable) ∧
    (Value.parse? (everySlot.toJson.print .pretty)).bind Deck.ofJson? = some everySlot ∧
    (∀ x ∈ styledTables.scalars, x.Portable) ∧
    (Value.parse? (styledTables.toJson.print .pretty)).bind StyledDocument.ofJson? =
      some styledTables := by
  obtain ⟨hdocuments, hdecks, hstyled⟩ := read_written .pretty
  have hnested : ∀ x ∈ nestedTables.scalars, x.Portable := by decide +kernel
  have hslots : ∀ x ∈ everySlot.scalars, x.Portable := by decide +kernel
  have htables : ∀ x ∈ styledTables.scalars, x.Portable := by decide +kernel
  exact ⟨hnested, hdocuments nestedTables hnested (by decide +kernel), hslots,
    hdecks everySlot hslots, htables, hstyled styledTables htables (by decide +kernel)⟩

end Folio
