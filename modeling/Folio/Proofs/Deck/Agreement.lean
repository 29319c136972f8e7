import Folio.Deck.Placement
import Folio.Document.Styling
import Folio.Proofs.Style.Binding

/-!
# Agreement of decks and documents

The text of a shape is resolved in another order than a paragraph of a document: the properties of
the whole come before its runs, and no surroundings lie under it. Still both are refused together,
and otherwise agree in the properties of every run and in the alignment. Main statement:
`place_iff_paragraph_styled`.
-/

namespace Folio

/-- A frame of text as a paragraph. -/
def TextFrame.asParagraph (t : TextFrame) : Paragraph := ⟨t.styleId, t.overrides, t.runs⟩

/-- The text that a slot shows as a paragraph of one run. -/
def Slot.asParagraph (s : Slot) (text : String) : Paragraph := ⟨s.styleId, s.overrides, [{ text }]⟩

/-- A run of a document as a span of text on a slide. -/
def StyledRun.asSpan (r : StyledRun) : TextSpan := ⟨r.text, r.style.run⟩

namespace StyledParagraph

/-- A paragraph of a document as the text of a shape, which also says where the text stands. -/
def asText (p : StyledParagraph) (valign : VerticalAlign) : PlacedText :=
  ⟨p.runs.map StyledRun.asSpan, p.style.paragraph.alignment, valign⟩

/-- A paragraph of a document as a shape. -/
def asShape (p : StyledParagraph) (frame : Box) (valign : VerticalAlign) : PlacedShape :=
  { frame, kind := .textBox, text := some (p.asText valign) }

end StyledParagraph

variable {styling : Styling}

namespace PlacedText

/-- A span on a slide is a styled run by other names. -/
theorem span_eq_map_styled (around : StyleProperties) (r : Run) :
    span styling around r = (r.styled styling around).map StyledRun.asSpan := by
  unfold span Run.styled
  cases styling.resolveRun around r.styleId r.overrides <;> rfl

/-- The spans of a text are its styled runs, and styling stops at the same run. -/
theorem mapM_span (around : StyleProperties) (runs : List Run) :
    runs.mapM (span styling around) =
      (runs.mapM (Run.styled styling around)).map (List.map StyledRun.asSpan) := by
  rw [← mapM_map_results]
  exact mapM_congr_of_mem fun r _ => span_eq_map_styled around r

/-- Text is resolved exactly when the paragraph of its runs is styled at the top of a section. -/
theorem resolve_eq_ok_iff (p : Paragraph) {valign : VerticalAlign} {text : PlacedText} :
    resolve styling p.styleId p.overrides p.runs valign = .ok text ↔
      ∃ p', p.styled styling {} = .ok p' ∧ text = p'.asText valign := by
  constructor
  · intro h
    obtain ⟨own, hown, h⟩ := bind_eq_ok_iff.mp h
    obtain ⟨style, hstyle, h⟩ := bind_eq_ok_iff.mp h
    obtain ⟨spans, hspans, h⟩ := bind_eq_ok_iff.mp h
    cases h
    rw [mapM_span] at hspans
    cases hruns : p.runs.mapM (Run.styled styling own) with
    | error e =>
      rw [hruns] at hspans
      cases hspans
    | ok runs =>
      rw [hruns] at hspans
      cases hspans
      refine ⟨⟨p.styleId, style, runs⟩, bind_eq_ok_iff.mpr ⟨own, hown, ?_⟩, rfl⟩
      rw [StyleProperties.above_empty]
      exact bind_eq_ok_iff.mpr ⟨runs, hruns, bind_eq_ok_iff.mpr ⟨style, hstyle, rfl⟩⟩
  · rintro ⟨p', hp, rfl⟩
    obtain ⟨own, hown, h⟩ := bind_eq_ok_iff.mp hp
    rw [StyleProperties.above_empty] at h
    obtain ⟨runs, hruns, h⟩ := bind_eq_ok_iff.mp h
    obtain ⟨style, hstyle, h⟩ := bind_eq_ok_iff.mp h
    cases h
    have hspans : p.runs.mapM (span styling own) = .ok (runs.map StyledRun.asSpan) := by
      rw [mapM_span, hruns]
      rfl
    exact bind_eq_ok_iff.mpr ⟨own, hown, bind_eq_ok_iff.mpr ⟨style, hstyle,
      bind_eq_ok_iff.mpr ⟨_, hspans, rfl⟩⟩⟩

end PlacedText

/-- A text frame is placed exactly when its paragraph can be styled, and shows that paragraph. -/
theorem TextFrame.place_eq_ok_iff {t : TextFrame} {shape : PlacedShape} :
    t.place styling = .ok shape ↔
      ∃ p, t.asParagraph.styled styling {} = .ok p ∧ shape = p.asShape t.frame t.valign := by
  constructor
  · intro h
    obtain ⟨text, htext, h⟩ := bind_eq_ok_iff.mp h
    cases h
    obtain ⟨p, hp, rfl⟩ := (PlacedText.resolve_eq_ok_iff t.asParagraph).mp htext
    exact ⟨p, hp, rfl⟩
  · rintro ⟨p, hp, rfl⟩
    exact bind_eq_ok_iff.mpr ⟨_, (PlacedText.resolve_eq_ok_iff t.asParagraph).mpr ⟨p, hp, rfl⟩, rfl⟩

namespace Slot

variable {s : Slot} {item : GridItem}

/-- A slot that shows no shape has a text for an item or fails. -/
theorem exists_of_textFor_eq_ok (hs : ∀ kind fill, s.content ≠ .shape kind fill)
    {text : Option String} (h : s.textFor item = .ok text) : ∃ shown, text = some shown := by
  unfold textFor at h
  split at h
  · cases h
    exact ⟨_, rfl⟩
  · obtain ⟨value, _, h⟩ := bind_eq_ok_iff.mp h
    cases h
    exact ⟨value, rfl⟩
  · cases h
    exact ⟨_, rfl⟩
  · obtain ⟨value, _, h⟩ := bind_eq_ok_iff.mp h
    cases h
    exact ⟨value, rfl⟩
  · rename_i hcontent
    exact absurd hcontent (hs _ _)

/-- A slot with a text is placed like a frame of that text. -/
theorem place_of_ne_shape (hs : ∀ kind fill, s.content ≠ .shape kind fill) (frame : Box) :
    s.place styling item frame = (do
      let text := (← s.textFor item).getD ""
      let text ← PlacedText.resolve styling s.styleId s.overrides [{ text }] s.valign
      return { frame, kind := .textBox, text := some text }) := by
  unfold place
  split
  · rename_i hcontent
    exact absurd hcontent (hs _ _)
  · rfl

/-- A slot with a text is placed exactly when its item has the text and its paragraph can be
styled. -/
theorem place_eq_ok_iff (hs : ∀ kind fill, s.content ≠ .shape kind fill) {frame : Box}
    {shape : PlacedShape} :
    s.place styling item frame = .ok shape ↔ ∃ text p, s.textFor item = .ok (some text) ∧
      (s.asParagraph text).styled styling {} = .ok p ∧ shape = p.asShape frame s.valign := by
  rw [place_of_ne_shape hs]
  constructor
  · intro h
    obtain ⟨text, hshown, h⟩ := bind_eq_ok_iff.mp h
    obtain ⟨shown, rfl⟩ := exists_of_textFor_eq_ok hs hshown
    obtain ⟨placed, hplaced, h⟩ := bind_eq_ok_iff.mp h
    cases h
    obtain ⟨p, hp, rfl⟩ := (PlacedText.resolve_eq_ok_iff (s.asParagraph shown)).mp hplaced
    exact ⟨shown, p, hshown, hp, rfl⟩
  · rintro ⟨shown, p, hshown, hp, rfl⟩
    have hplaced : PlacedText.resolve styling s.styleId s.overrides [{ text := shown }] s.valign =
        .ok (p.asText s.valign) :=
      (PlacedText.resolve_eq_ok_iff (s.asParagraph shown)).mpr ⟨p, hp, rfl⟩
    exact bind_eq_ok_iff.mpr ⟨_, hshown, bind_eq_ok_iff.mpr ⟨_, hplaced, rfl⟩⟩

end Slot

/-- A paragraph among blocks is styled like a paragraph. -/
theorem Block.styled_paragraph_eq_ok_iff {outline : List OutlineEntry} {around : Surroundings}
    {p : Paragraph} {p' : StyledParagraph} :
    (Block.paragraph p).styled styling outline around = .ok (.paragraph p') ↔
      p.styled styling around = .ok p' := by
  rw [Block.styled]
  cases p.styled styling around with
  | error e =>
    constructor <;> (intro h; cases h)
  | ok q =>
    constructor <;>
    · intro h
      cases h
      rfl

/-- A frame of text is placed exactly when its paragraph is styled directly in a section, and shows
what the paragraph became. So is a slot with text, as soon as its text is known. -/
theorem place_iff_paragraph_styled (styling : Styling) (outline : List OutlineEntry) :
    (∀ (t : TextFrame) shape, t.place styling = .ok shape ↔
      ∃ p, (Block.paragraph t.asParagraph).styled styling outline {} = .ok (.paragraph p) ∧
        shape = p.asShape t.frame t.valign) ∧
    ∀ (s : Slot) item frame shape, (∀ kind fill, s.content ≠ .shape kind fill) →
      (s.place styling item frame = .ok shape ↔ ∃ text p, s.textFor item = .ok (some text) ∧
        (Block.paragraph (s.asParagraph text)).styled styling outline {} = .ok (.paragraph p) ∧
        shape = p.asShape frame s.valign) := by
  constructor
  · intro t shape
    simp only [Block.styled_paragraph_eq_ok_iff]
    exact TextFrame.place_eq_ok_iff
  · intro s item frame shape hs
    simp only [Block.styled_paragraph_eq_ok_iff]
    exact Slot.place_eq_ok_iff hs

/-- A quotation in two runs, of which one is upright. -/
def quotedFrame : TextFrame := {
  frame := ⟨0, 0, 4, 1⟩
  styleId := some "Quote"
  overrides := ({} : StyleProperties).align .center
  runs := [{ text := "To be " }, { text := "or not", styleId := some "Body" }]
  valign := .middle }

/-- A slot that greets by name. -/
def greetingSlot : Slot := (Slot.template "Dear \x7blabel\x7d" 0.5).style "Quote"

/-- A frame whose own font has no role and whose run has no style. -/
def strayFrame : TextFrame := {
  frame := ⟨0, 0, 4, 1⟩
  overrides := ({} : StyleProperties).fontRole "mono"
  runs := [{ text := "Alas", styleId := some "Ghost" }] }

/-- The quotation and a greeting are placed as their paragraphs are styled; where both are refused,
another failure may come first. -/
theorem place_iff_paragraph_styled_greeting :
    let styling : Styling := ⟨Stylesheet.plainTheme, Stylesheet.letter⟩
    let ann : GridItem := { index := 0, label := "Ann" }
    (∃ p, (Block.paragraph quotedFrame.asParagraph).styled styling [] {} = .ok (.paragraph p) ∧
      quotedFrame.place styling = .ok (p.asShape quotedFrame.frame .middle)) ∧
    (∃ text p, greetingSlot.textFor ann = .ok (some text) ∧
      (Block.paragraph (greetingSlot.asParagraph text)).styled styling [] {} =
        .ok (.paragraph p) ∧
      greetingSlot.place styling ann quotedFrame.frame =
        .ok (p.asShape quotedFrame.frame .top)) ∧
    strayFrame.place styling = .error (.unknownRole "mono") ∧
    (Block.paragraph strayFrame.asParagraph).styled styling [] {} =
      .error (.unknownStyle "Ghost") := by
  intro styling ann
  obtain ⟨hframe, hslot⟩ := place_iff_paragraph_styled styling []
  obtain ⟨shape, hquoted⟩ : ∃ shape, quotedFrame.place styling = .ok shape :=
    exists_eq_ok_of_isOk (by decide +kernel)
  obtain ⟨shape', hgreeting⟩ : ∃ shape,
      greetingSlot.place styling ann quotedFrame.frame = .ok shape :=
    exists_eq_ok_of_isOk (by decide +kernel)
  have htext : ∀ kind fill, greetingSlot.content ≠ .shape kind fill := fun _ _ h => nomatch h
  obtain ⟨p, hp, rfl⟩ := (hframe _ _).mp hquoted
  obtain ⟨text, p', hshown, hp', rfl⟩ := (hslot _ _ _ _ htext).mp hgreeting
  have hstray : strayFrame.asParagraph.styled styling {} = .error (.unknownStyle "Ghost") := by
    decide +kernel
  refine ⟨⟨p, hp, hquoted⟩, ⟨text, p', hshown, hp', hgreeting⟩, rfl, ?_⟩
  rw [Block.styled, hstray]
  rfl

end Folio
