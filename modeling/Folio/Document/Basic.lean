import Folio.Style.Properties
import Folio.Text.Blank

/-!
# Documents

A document is a list of sections, each a page setup with blocks. Blocks are headings, paragraphs,
runs, tables, page breaks and tables of contents; the cells of a table hold blocks again. A
document records structure and references to styles, and its outline lists the headings that stand
directly in a section.
-/

namespace Folio

/-- A span of text with one set of properties. -/
structure Run where
  /-- The text. -/
  text : String
  /-- The id of the style of the run. -/
  styleId : Option String := none
  /-- Properties declared by the run itself. -/
  overrides : StyleProperties := {}
  deriving DecidableEq

namespace Run

/-- Gives the run a style. -/
def style (run : Run) (id : String) : Run := { run with styleId := some id }

/-- Declares properties above those that the run declares already. -/
def override (run : Run) (p : StyleProperties) : Run :=
  { run with overrides := p.above run.overrides }

/-- Makes the run bold. -/
def bold (run : Run) : Run := { run with overrides := run.overrides.bold true }

/-- Makes the run italic. -/
def italic (run : Run) : Run := { run with overrides := run.overrides.italic true }

/-- Declares the font size. -/
def size (run : Run) (pt : Float32) : Run := { run with overrides := run.overrides.size pt }

/-- Declares the colour by its role. -/
def colorRole (run : Run) (role : String) : Run :=
  { run with overrides := run.overrides.colorRole role }

end Run

/-- Runs that are set together. -/
structure Paragraph where
  /-- The id of the style of the paragraph. -/
  styleId : Option String := none
  /-- Properties declared by the paragraph itself. -/
  overrides : StyleProperties := {}
  /-- The runs in their order. -/
  runs : List Run := []
  deriving DecidableEq

namespace Paragraph

/-- The paragraph of one run. -/
def ofText (text : String) : Paragraph := { runs := [{ text }] }

/-- Gives the paragraph a style. -/
def style (p : Paragraph) (id : String) : Paragraph := { p with styleId := some id }

/-- Declares properties above those that the paragraph declares already. -/
def override (p : Paragraph) (q : StyleProperties) : Paragraph :=
  { p with overrides := q.above p.overrides }

/-- Declares the alignment. -/
def align (p : Paragraph) (a : Alignment) : Paragraph :=
  { p with overrides := p.overrides.align a }

/-- Declares the space above and below. -/
def spacing (p : Paragraph) (before after : Float32) : Paragraph :=
  { p with overrides := p.overrides.spacing before after }

/-- Adds a run at the end. -/
def run (p : Paragraph) (r : Run) : Paragraph := { p with runs := p.runs ++ [r] }

/-- Adds a run of plain text at the end. -/
def text (p : Paragraph) (s : String) : Paragraph := p.run { text := s }

/-- The text of all runs. -/
def plainText (p : Paragraph) : String := String.join (p.runs.map (·.text))

/-- Whether no run shows anything. -/
def isEmpty (p : Paragraph) : Bool := p.runs.all fun r => Text.isBlank r.text

end Paragraph

/-- A cell of a table, with blocks of one kind and a shading of another. -/
structure Cell (β γ : Type) where
  /-- What stands in the cell. -/
  blocks : List β := []
  /-- The colour behind the cell. -/
  shading : Option γ := none

/-- A row of a table. -/
structure Row (β γ : Type) where
  /-- The cells from left to right. -/
  cells : List (Cell β γ) := []
  /-- Whether the row is repeated at the top of each page. -/
  header : Bool := false

/-- A table. -/
structure Table (β γ : Type) where
  /-- The id of the style that lies under everything in the table. -/
  styleId : Option String := none
  /-- The rows from top to bottom. -/
  rows : List (Row β γ) := []

namespace Cell

variable {β γ : Type}

/-- Adds a block at the end. -/
def block (cell : Cell β γ) (b : β) : Cell β γ := { cell with blocks := cell.blocks ++ [b] }

/-- Shades the cell. -/
def shade (cell : Cell β γ) (c : γ) : Cell β γ := { cell with shading := some c }

end Cell

namespace Table

variable {β γ : Type}

/-- Gives the table a style. -/
def style (t : Table β γ) (id : String) : Table β γ := { t with styleId := some id }

/-- Adds a row at the bottom. -/
def row (t : Table β γ) (r : Row β γ) : Table β γ := { t with rows := t.rows ++ [r] }

/-- The number of cells in the first row. -/
def columnCount (t : Table β γ) : Nat :=
  match t.rows with
  | [] => 0
  | r :: _ => r.cells.length

end Table

/-- Where a table of contents goes and which headings it lists. -/
structure TocRequest where
  /-- The title above the list. -/
  title : Option String := none
  /-- The highest level of heading that is listed. -/
  minLevel : UInt8 := 0
  /-- The lowest level of heading that is listed. -/
  maxLevel : UInt8 := 2
  /-- Whether the entries are links. -/
  hyperlink : Bool := true
  deriving DecidableEq

/-- Whether headings of a level are listed. -/
def TocRequest.includes (toc : TocRequest) (level : UInt8) : Bool :=
  toc.minLevel ≤ level && level ≤ toc.maxLevel

/-- A part of a section or of a cell. -/
inductive Block where
  /-- A heading and its level, zero for a chapter. -/
  | heading (level : UInt8) (paragraph : Paragraph)
  | paragraph (p : Paragraph)
  /-- A run outside of any paragraph. -/
  | run (r : Run)
  | table (t : Table Block ColorRef)
  | pageBreak
  | toc (request : TocRequest)

/-- The cell that holds a paragraph of one run. -/
def Cell.ofText {γ : Type} (text : String) : Cell Block γ :=
  { blocks := [.paragraph (.ofText text)] }

/-- The space between the edges of a page and its content, in twentieths of a point. -/
structure Margins where
  /-- Above the content. -/
  top : UInt32
  /-- Right of the content. -/
  right : UInt32
  /-- Below the content. -/
  bottom : UInt32
  /-- Left of the content. -/
  left : UInt32
  deriving DecidableEq

/-- The size of a page and its margins, in twentieths of a point. -/
structure PageSetup where
  /-- The width of the page. -/
  width : UInt32
  /-- The height of the page. -/
  height : UInt32
  /-- The space around the content. -/
  margins : Margins
  deriving DecidableEq

namespace PageSetup

/-- Upright A4 with margins of one inch. -/
def a4 : PageSetup := ⟨11906, 16838, ⟨1440, 1440, 1440, 1440⟩⟩

/-- A4 turned on its side. -/
def a4Landscape : PageSetup := { a4 with width := a4.height, height := a4.width }

/-- The width between the side margins; none is left when they meet. -/
def contentWidth (page : PageSetup) : UInt32 :=
  UInt32.ofNat (page.width.toNat - (page.margins.left.toNat + page.margins.right.toNat))

end PageSetup

/-- Blocks on pages of one setup. -/
structure Section where
  /-- The pages. -/
  page : PageSetup
  /-- The blocks in their order. -/
  blocks : List Block

/-- A heading as a table of contents lists it. -/
structure OutlineEntry where
  /-- The level of the heading. -/
  level : UInt8
  /-- The text of the heading. -/
  text : String
  /-- The position of the section. -/
  sectionIndex : Nat
  /-- The position of the heading among the blocks of the section. -/
  blockIndex : Nat
  deriving DecidableEq

/-- A document. -/
structure Document where
  /-- The title. -/
  title : String
  /-- The sections in their order. -/
  sections : List Section

namespace Document

/-- The headings of a section, whose blocks are numbered from `blockIndex` on. -/
def sectionOutline (sectionIndex : Nat) : Nat → List Block → List OutlineEntry
  | _, [] => []
  | blockIndex, .heading level p :: rest =>
    ⟨level, p.plainText, sectionIndex, blockIndex⟩ ::
      sectionOutline sectionIndex (blockIndex + 1) rest
  | blockIndex, _ :: rest => sectionOutline sectionIndex (blockIndex + 1) rest

/-- The headings of sections, which are numbered from `sectionIndex` on. -/
def outlineFrom : Nat → List Section → List OutlineEntry
  | _, [] => []
  | sectionIndex, s :: rest =>
    sectionOutline sectionIndex 0 s.blocks ++ outlineFrom (sectionIndex + 1) rest

/-- The headings that stand directly in a section, in the order of the document. -/
def outline (doc : Document) : List OutlineEntry := outlineFrom 0 doc.sections

/-- The number of blocks that stand directly in a section. -/
def blockCount (doc : Document) : Nat := (doc.sections.flatMap (·.blocks)).length

end Document

/-- The id of the style of headings of a level, unless they name another. -/
def headingStyleId (level : UInt8) : String := "Heading" ++ toString (level.toNat + 1)

/-- The id of the style of entries of a level in a table of contents. -/
def tocStyleId (level : UInt8) : String := "TOC" ++ toString (level.toNat + 1)

/-- The id of the style of the title of a table of contents. -/
def tocTitleStyleId : String := "TOCHeading"

end Folio
