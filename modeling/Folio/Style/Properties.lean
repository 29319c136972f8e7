import Folio.Theme.Basic

/-!
# Style properties

The properties that a style, a paragraph or a run declares, each of them optional. Of two layers the
upper one decides where it declares a property, and the lower one elsewhere; layering is associative
and has the empty layer as its unit.
-/

namespace Folio

/-- How the lines of a paragraph are aligned. -/
inductive Alignment where
  | left
  | center
  | right
  | justify
  deriving DecidableEq, Inhabited

/-- Declared properties of characters. -/
structure RunProperties where
  /-- The font. -/
  font : Option FontRef := none
  /-- The font size in points. -/
  sizePt : Option Float32 := none
  /-- Whether the text is bold. -/
  bold : Option Bool := none
  /-- Whether the text is italic. -/
  italic : Option Bool := none
  /-- Whether the text is underlined. -/
  underline : Option Bool := none
  /-- The colour of the text. -/
  color : Option ColorRef := none
  deriving DecidableEq, Inhabited

/-- Declared properties of paragraphs. -/
structure ParagraphProperties where
  /-- How the lines are aligned. -/
  alignment : Option Alignment := none
  /-- The space above in points. -/
  spacingBeforePt : Option Float32 := none
  /-- The space below in points. -/
  spacingAfterPt : Option Float32 := none
  /-- The level in the outline. -/
  outlineLevel : Option UInt8 := none
  deriving DecidableEq, Inhabited

/-- Declared properties of characters and paragraphs. -/
structure StyleProperties where
  /-- Properties of characters. -/
  run : RunProperties := {}
  /-- Properties of paragraphs. -/
  paragraph : ParagraphProperties := {}
  deriving DecidableEq, Inhabited

namespace RunProperties

/-- No property is declared. -/
def isEmpty (p : RunProperties) : Bool :=
  p.font.isNone && p.sizePt.isNone && p.bold.isNone && p.italic.isNone && p.underline.isNone &&
    p.color.isNone

/-- The upper layer's properties, and the lower layer's where the upper one declares none. -/
def above (upper lower : RunProperties) : RunProperties where
  font := upper.font.or lower.font
  sizePt := upper.sizePt.or lower.sizePt
  bold := upper.bold.or lower.bold
  italic := upper.italic.or lower.italic
  underline := upper.underline.or lower.underline
  color := upper.color.or lower.color

@[simp] theorem above_empty (p : RunProperties) : p.above {} = p := by
  simp only [above, Option.or_none]

@[simp] theorem empty_above (p : RunProperties) : above {} p = p := by
  simp only [above, Option.none_or]

theorem above_assoc (p q r : RunProperties) : (p.above q).above r = p.above (q.above r) := by
  simp only [above, Option.or_assoc]

end RunProperties

namespace ParagraphProperties

/-- No property is declared. -/
def isEmpty (p : ParagraphProperties) : Bool :=
  p.alignment.isNone && p.spacingBeforePt.isNone && p.spacingAfterPt.isNone && p.outlineLevel.isNone

/-- The upper layer's properties, and the lower layer's where the upper one declares none. -/
def above (upper lower : ParagraphProperties) : ParagraphProperties where
  alignment := upper.alignment.or lower.alignment
  spacingBeforePt := upper.spacingBeforePt.or lower.spacingBeforePt
  spacingAfterPt := upper.spacingAfterPt.or lower.spacingAfterPt
  outlineLevel := upper.outlineLevel.or lower.outlineLevel

@[simp] theorem above_empty (p : ParagraphProperties) : p.above {} = p := by
  simp only [above, Option.or_none]

@[simp] theorem empty_above (p : ParagraphProperties) : above {} p = p := by
  simp only [above, Option.none_or]

theorem above_assoc (p q r : ParagraphProperties) : (p.above q).above r = p.above (q.above r) := by
  simp only [above, Option.or_assoc]

end ParagraphProperties

namespace StyleProperties

/-- No property is declared. -/
def isEmpty (p : StyleProperties) : Bool := p.run.isEmpty && p.paragraph.isEmpty

/-- The upper layer's properties, and the lower layer's where the upper one declares none. -/
def above (upper lower : StyleProperties) : StyleProperties where
  run := upper.run.above lower.run
  paragraph := upper.paragraph.above lower.paragraph

@[simp] theorem above_empty (p : StyleProperties) : p.above {} = p := by
  simp only [above, RunProperties.above_empty, ParagraphProperties.above_empty]

@[simp] theorem empty_above (p : StyleProperties) : above {} p = p := by
  simp only [above, RunProperties.empty_above, ParagraphProperties.empty_above]

theorem above_assoc (p q r : StyleProperties) : (p.above q).above r = p.above (q.above r) := by
  simp only [above, RunProperties.above_assoc, ParagraphProperties.above_assoc]

/-- A list of layers as one, the first of them uppermost. -/
def stack (layers : List StyleProperties) : StyleProperties := layers.foldr above {}

/-- Declares the font. -/
def font (p : StyleProperties) (f : FontRef) : StyleProperties :=
  { p with run.font := some f }

/-- Declares the font by its role. -/
def fontRole (p : StyleProperties) (role : String) : StyleProperties := p.font (.role role)

/-- Declares the font size. -/
def size (p : StyleProperties) (pt : Float32) : StyleProperties := { p with run.sizePt := some pt }

/-- Declares whether the text is bold. -/
def bold (p : StyleProperties) (on : Bool) : StyleProperties := { p with run.bold := some on }

/-- Declares whether the text is italic. -/
def italic (p : StyleProperties) (on : Bool) : StyleProperties := { p with run.italic := some on }

/-- Declares whether the text is underlined. -/
def underline (p : StyleProperties) (on : Bool) : StyleProperties :=
  { p with run.underline := some on }

/-- Declares the colour of the text. -/
def color (p : StyleProperties) (c : ColorRef) : StyleProperties := { p with run.color := some c }

/-- Declares the colour of the text by its role. -/
def colorRole (p : StyleProperties) (role : String) : StyleProperties := p.color (.role role)

/-- Declares the alignment. -/
def align (p : StyleProperties) (a : Alignment) : StyleProperties :=
  { p with paragraph.alignment := some a }

/-- Declares the space above. -/
def spacingBefore (p : StyleProperties) (pt : Float32) : StyleProperties :=
  { p with paragraph.spacingBeforePt := some pt }

/-- Declares the space below. -/
def spacingAfter (p : StyleProperties) (pt : Float32) : StyleProperties :=
  { p with paragraph.spacingAfterPt := some pt }

/-- Declares the space above and below. -/
def spacing (p : StyleProperties) (before after : Float32) : StyleProperties :=
  (p.spacingBefore before).spacingAfter after

/-- Declares the level in the outline. -/
def outlineLevel (p : StyleProperties) (level : UInt8) : StyleProperties :=
  { p with paragraph.outlineLevel := some level }

end StyleProperties

/-- A style: properties under an id, with the style that it is based on. -/
structure StyleDefinition where
  /-- The id of the style. -/
  id : String
  /-- The name shown to people. -/
  name : Option String := none
  /-- The id of the style that this one refines. -/
  basedOn : Option String := none
  /-- The id of the style of the paragraph that follows. -/
  next : Option String := none
  /-- What the style declares. -/
  properties : StyleProperties := {}
  deriving DecidableEq

/-- Properties of characters with nothing left open. -/
structure RunStyle where
  /-- The font face. -/
  font : String
  /-- The font size in points. -/
  sizePt : Float32
  /-- Whether the text is bold. -/
  bold : Bool
  /-- Whether the text is italic. -/
  italic : Bool
  /-- Whether the text is underlined. -/
  underline : Bool
  /-- The colour of the text. -/
  color : Color
  deriving DecidableEq

/-- Properties of paragraphs with nothing left open. -/
structure ParagraphStyle where
  /-- How the lines are aligned. -/
  alignment : Alignment
  /-- The space above in points. -/
  spacingBeforePt : Float32
  /-- The space below in points. -/
  spacingAfterPt : Float32
  /-- The level in the outline, for paragraphs that have one. -/
  outlineLevel : Option UInt8
  deriving DecidableEq

/-- Properties with nothing left open. -/
structure EffectiveStyle where
  /-- Properties of characters. -/
  run : RunStyle
  /-- Properties of paragraphs. -/
  paragraph : ParagraphStyle
  deriving DecidableEq

end Folio
