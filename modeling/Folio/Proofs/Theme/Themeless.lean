import Folio.Deck.Placed
import Folio.Document.Styled
import Folio.Proofs.Alike
import Folio.Style.Styling

/-!
# What a theme does not decide

A theme gives colours to colour roles and faces to font roles. Without them, and without the name of
the theme, a styled document or a placed deck shows what is left: its texts, sizes, places and
shapes. References to themes that have the same roles end alike, so properties in effect differ in
colour and face alone, and a stylesheet can be bound to both themes or to neither.
-/

namespace Folio

/-- The themes bind the same roles, perhaps to other colours and faces. -/
structure Theme.SameRoles (one other : Theme) : Prop where
  colors : ∀ role, one.colors.contains role = other.colors.contains role
  fonts : ∀ role, one.fonts.contains role = other.fonts.contains role

/-- Black in place of any colour. -/
def Color.themeless (_ : Color) : Color := .black

/-- Properties of characters without the face and the colour. -/
def RunStyle.themeless (s : RunStyle) : RunStyle :=
  { s with font := "", color := s.color.themeless }

/-- Properties without the face and the colour. -/
def EffectiveStyle.themeless (s : EffectiveStyle) : EffectiveStyle :=
  { s with run := s.run.themeless }

/-- A run without the face and the colour of its text. -/
def StyledRun.themeless (r : StyledRun) : StyledRun := { r with style := r.style.themeless }

/-- A paragraph without faces and colours. -/
def StyledParagraph.themeless (p : StyledParagraph) : StyledParagraph :=
  { p with style := p.style.themeless, runs := p.runs.map .themeless }

/-- An entry without its face and its colour. -/
def TocEntry.themeless (e : TocEntry) : TocEntry := { e with style := e.style.themeless }

/-- A table of contents without faces and colours. -/
def StyledToc.themeless (toc : StyledToc) : StyledToc :=
  { toc with title := toc.title.map .themeless, entries := toc.entries.map .themeless }

mutual

/-- A block without faces and colours, also in the cells of a table. -/
def StyledBlock.themeless : StyledBlock → StyledBlock
  | .heading level p => .heading level p.themeless
  | .paragraph p => .paragraph p.themeless
  | .run r => .run r.themeless
  | .table rows => .table (themelessRows rows)
  | .pageBreak => .pageBreak
  | .toc contents => .toc contents.themeless

/-- Blocks without faces and colours. -/
def themelessBlocks : List StyledBlock → List StyledBlock
  | [] => []
  | b :: rest => b.themeless :: themelessBlocks rest

/-- Cells without faces, colours and the colours of their shadings. -/
def themelessCells : List (Cell StyledBlock Color) → List (Cell StyledBlock Color)
  | [] => []
  | ⟨blocks, shading⟩ :: rest =>
    ⟨themelessBlocks blocks, shading.map .themeless⟩ :: themelessCells rest

/-- Rows without faces and colours. -/
def themelessRows : List (Row StyledBlock Color) → List (Row StyledBlock Color)
  | [] => []
  | ⟨cells, header⟩ :: rest => ⟨themelessCells cells, header⟩ :: themelessRows rest

end

/-- A section without faces and colours. -/
def StyledSection.themeless (s : StyledSection) : StyledSection :=
  { s with blocks := themelessBlocks s.blocks }

/-- A document without the name, the colours and the faces of its theme. -/
def StyledDocument.themeless (doc : StyledDocument) : StyledDocument :=
  { doc with theme := "", sections := doc.sections.map .themeless }

/-- A span of text without its face and its colour. -/
def TextSpan.themeless (s : TextSpan) : TextSpan := { s with style := s.style.themeless }

/-- Text without faces and colours. -/
def PlacedText.themeless (t : PlacedText) : PlacedText :=
  { t with runs := t.runs.map .themeless }

/-- An outline without its colour. -/
def LineStyle.themeless (l : LineStyle) : LineStyle := { l with color := l.color.themeless }

/-- A shape without colours; it still shows whether it has a fill and an outline. -/
def PlacedShape.themeless (s : PlacedShape) : PlacedShape :=
  { s with
    fill := s.fill.map .themeless
    line := s.line.map .themeless
    text := s.text.map .themeless }

/-- A card without colours; its item and its cell stay. -/
def PlacedCard.themeless (c : PlacedCard) : PlacedCard :=
  { c with shapes := c.shapes.map .themeless }

/-- A group of cards without colours. -/
def PlacedGroup.themeless (g : PlacedGroup) : PlacedGroup :=
  ⟨g.cards.map .themeless, g.connectors.map .themeless⟩

/-- An element without colours. -/
def PlacedElement.themeless : PlacedElement → PlacedElement
  | .shape s => .shape s.themeless
  | .group g => .group g.themeless

/-- A slide without colours; it still shows whether it has a background. -/
def PlacedSlide.themeless (s : PlacedSlide) : PlacedSlide :=
  { s with background := s.background.map .themeless, elements := s.elements.map .themeless }

/-- A deck without the colours and the faces of its theme. -/
def PlacedDeck.themeless (deck : PlacedDeck) : PlacedDeck :=
  { deck with slides := deck.slides.map .themeless }

section

variable {one other : Theme} (h : one.SameRoles other)

include h

theorem Theme.font_alike (role : String) :
    Alike (fun _ => ()) (one.font role) (other.font role) := by
  have hrole := h.fonts role
  unfold Dict.contains at hrole
  unfold font
  cases hone : one.fonts.get? role <;> cases hother : other.fonts.get? role <;>
    simp_all [Alike, Except.map]

theorem Theme.color_alike (role : String) :
    Alike Color.themeless (one.color role) (other.color role) := by
  have hrole := h.colors role
  unfold Dict.contains at hrole
  unfold color
  cases hone : one.colors.get? role <;> cases hother : other.colors.get? role <;>
    simp_all [Alike, Except.map, Color.themeless]

theorem FontRef.resolve_alike (f : FontRef) :
    Alike (fun _ => ()) (f.resolve one) (f.resolve other) := by
  cases f with
  | role name => exact Theme.font_alike h name
  | face name => exact .refl _ _

theorem ColorRef.resolve_alike (c : ColorRef) :
    Alike Color.themeless (c.resolve one) (c.resolve other) := by
  cases c with
  | role name => exact Theme.color_alike h name
  | literal c => exact .refl _ _

variable {sheet : Stylesheet}

/-- Properties settle alike: the size and all else is not looked up in a theme. -/
theorem Styling.settle_alike (declared : StyleProperties) :
    Alike EffectiveStyle.themeless (settle ⟨one, sheet⟩ declared)
      (settle ⟨other, sheet⟩ declared) :=
  (FontRef.resolve_alike h _).bind fun _ _ _ => (ColorRef.resolve_alike h _).map fun _ _ _ => rfl

/-- Styles resolve alike but for colours and faces. -/
theorem Styling.resolve_alike (id : String) (overrides : StyleProperties) :
    Alike EffectiveStyle.themeless (resolve ⟨one, sheet⟩ id overrides)
      (resolve ⟨other, sheet⟩ id overrides) :=
  .after (declared ⟨one, sheet⟩ (some id) overrides) fun own => settle_alike h own

/-- Runs resolve alike but for colours and faces. -/
theorem Styling.resolveRun_alike (around : StyleProperties) (styleId : Option String)
    (overrides : StyleProperties) :
    Alike EffectiveStyle.themeless (resolveRun ⟨one, sheet⟩ around styleId overrides)
      (resolveRun ⟨other, sheet⟩ around styleId overrides) :=
  .after (declared ⟨one, sheet⟩ styleId overrides) fun own => settle_alike h (own.above around)

end

/-- Checks of all elements end alike when the checks of each do. -/
theorem checkAll_alike {α β γ : Type} {view : β → γ} {f g : α → Except BuildError β}
    (hf : ∀ a, Alike view (f a) (g a)) (xs : List α) :
    Alike (fun _ => ()) (checkAll f xs) (checkAll g xs) := by
  induction xs with
  | nil => exact .refl _ _
  | cons a xs ih => exact (hf a).bind fun _ _ _ => ih

/-- A stylesheet is bound to both themes, or fails for both with the same error. -/
theorem Stylesheet.bind_alike {one other : Theme} (h : one.SameRoles other) (sheet : Stylesheet) :
    Alike (fun _ => ()) (sheet.bind one) (sheet.bind other) := by
  refine .after (checkAll sheet.chain sheet.styles.names) fun _ => ?_
  refine (Styling.settle_alike h {}).bind fun _ _ _ => ?_
  have hstyles : Alike (fun _ => ())
      (checkAll (Styling.resolve ⟨one, sheet⟩ · {}) sheet.styles.names)
      (checkAll (Styling.resolve ⟨other, sheet⟩ · {}) sheet.styles.names) :=
    checkAll_alike (fun id => Styling.resolve_alike h id {}) _
  exact hstyles.map fun _ _ _ => rfl

end Folio
