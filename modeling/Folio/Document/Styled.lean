import Folio.Document.Basic

/-!
# Styled documents

The form in which a document leaves: the same tree with the properties in effect at every run and
paragraph, the colours of shadings, and the entries of tables of contents. Nothing has to be
looked up any more.
-/

namespace Folio

/-- A run with the properties in effect. -/
structure StyledRun where
  /-- The text. -/
  text : String
  /-- The properties in effect. -/
  style : EffectiveStyle
  deriving DecidableEq

/-- A paragraph with the properties in effect. -/
structure StyledParagraph where
  /-- The id of the style that the paragraph names. -/
  styleId : Option String
  /-- The properties in effect. -/
  style : EffectiveStyle
  /-- The runs in their order. -/
  runs : List StyledRun
  deriving DecidableEq

/-- The text of all runs. -/
def StyledParagraph.plainText (p : StyledParagraph) : String := String.join (p.runs.map (·.text))

/-- An entry of a table of contents. -/
structure TocEntry where
  /-- The level of the heading. -/
  level : UInt8
  /-- The text of the heading. -/
  text : String
  /-- The properties in effect. -/
  style : EffectiveStyle
  deriving DecidableEq

/-- A table of contents with its entries. -/
structure StyledToc where
  /-- The title above the list. -/
  title : Option StyledParagraph
  /-- The entries in the order of the headings. -/
  entries : List TocEntry
  /-- Whether the entries are links. -/
  hyperlink : Bool
  deriving DecidableEq

/-- A part of a section or of a cell. -/
inductive StyledBlock where
  | heading (level : UInt8) (paragraph : StyledParagraph)
  | paragraph (p : StyledParagraph)
  | run (r : StyledRun)
  | table (rows : List (Row StyledBlock Color))
  | pageBreak
  | toc (contents : StyledToc)

/-- Blocks on pages of one setup. -/
structure StyledSection where
  /-- The pages. -/
  page : PageSetup
  /-- The blocks in their order. -/
  blocks : List StyledBlock

/-- A document ready to be packaged. -/
structure StyledDocument where
  /-- The title. -/
  title : String
  /-- The name of the theme. -/
  theme : String
  /-- The styles in ascending order of their ids. -/
  styles : List StyleDefinition
  /-- The sections in their order. -/
  sections : List StyledSection

namespace StyledDocument

/-- The blocks of all sections. -/
def blocks (doc : StyledDocument) : List StyledBlock := doc.sections.flatMap (·.blocks)

/-- The level and the text of a heading. -/
def heading? : StyledBlock → Option (UInt8 × String)
  | .heading level p => some (level, p.plainText)
  | _ => none

/-- The headings that stand directly in a section, in the order of the document. -/
def headings (doc : StyledDocument) : List (UInt8 × String) := doc.blocks.filterMap heading?

end StyledDocument

end Folio
