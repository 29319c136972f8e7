import Folio.Document.Styled
import Folio.Style.Json

/-!
# Documents as data

A block is a record that carries its kind beside its fields. Cells hold blocks again, so blocks
are read down to the depth of the value that holds them; inside a block everything is read
leniently, other blocks too.
-/

namespace Folio

open Json

namespace Run

/-- The names of the fields. -/
def fields : List String := ["text", "style_id", "overrides"]

/-- Reads a run. -/
def ofJson? (mode : Strictness) (v : Value) : Option Run := do
  let [text, styleId, overrides] ← v.slots? fields | none
  return {
    text := ← Value.required Value.text? text
    styleId := ← Value.optional Value.text? styleId
    overrides := ← Value.orElse (StyleProperties.ofJson? mode) {} overrides }

/-- The fields of a run. -/
def slots (r : Run) : List (Option Value) :=
  [some (.text r.text), r.styleId.map .text, r.overrides.slot]

/-- Writes a run. -/
def toJson (r : Run) : Value := .record fields r.slots

end Run

namespace Paragraph

/-- The names of the fields. -/
def fields : List String := ["style_id", "overrides", "runs"]

/-- Reads a paragraph. -/
def ofJson? (mode : Strictness) (v : Value) : Option Paragraph := do
  let [styleId, overrides, runs] ← v.slots? fields | none
  return {
    styleId := ← Value.optional Value.text? styleId
    overrides := ← Value.orElse (StyleProperties.ofJson? mode) {} overrides
    runs := ← Value.required (Value.list? (Run.ofJson? mode)) runs }

/-- The fields of a paragraph. -/
def slots (p : Paragraph) : List (Option Value) :=
  [p.styleId.map .text, p.overrides.slot, some (.ofList Run.toJson p.runs)]

/-- Writes a paragraph. -/
def toJson (p : Paragraph) : Value := .record fields p.slots

end Paragraph

section Tables

variable {β γ : Type}

/-- The names of the fields of a cell. -/
def Cell.fields : List String := ["blocks", "shading"]

/-- Reads a cell, given how blocks and shadings are read. -/
def Cell.ofJson? (block : Value → Option β) (shade : Value → Option γ) (v : Value) :
    Option (Cell β γ) := do
  let [blocks, shading] ← v.slots? fields | none
  return {
    blocks := ← Value.required (Value.list? block) blocks
    shading := ← Value.optional shade shading }

/-- The names of the fields of a row. -/
def Row.fields : List String := ["cells", "header"]

/-- Reads a row, given how the parts of a cell and the mark of a header are read. -/
def Row.ofJson? (block : Value → Option β) (shade : Value → Option γ)
    (mark : Option Value → Option Bool) (v : Value) : Option (Row β γ) := do
  let [cells, header] ← v.slots? fields | none
  return {
    cells := ← Value.required (Value.list? (Cell.ofJson? block shade)) cells
    header := ← mark header }

/-- The mark of a header, which may be left out of a row that is none. -/
def Row.markOrNone : Option Value → Option Bool := Value.orElse Value.bool? false

/-- The mark of a header, which has to be there. -/
def Row.mark : Option Value → Option Bool := Value.required Value.bool?

/-- The names of the fields of a table. -/
def Table.fields : List String := ["style_id", "rows"]

/-- Reads a table. -/
def Table.ofJson? (block : Value → Option β) (shade : Value → Option γ) (v : Value) :
    Option (Table β γ) := do
  let [styleId, rows] ← v.slots? fields | none
  return {
    styleId := ← Value.optional Value.text? styleId
    rows := ← Value.required (Value.list? (Row.ofJson? block shade Row.markOrNone)) rows }

/-- A cell from its written parts. -/
def Cell.written (blocks : List Value) (shading : Option Value) : Value :=
  .record fields [some (.array blocks), shading]

/-- A row from its written cells. -/
def Row.written (cells : List Value) (header : Bool) : Value :=
  .record fields [some (.array cells), some (.bool header)]

end Tables

namespace TocRequest

/-- The names of the fields. -/
def fields : List String := ["title", "min_level", "max_level", "hyperlink"]

/-- Reads the request for a table of contents, whose entries are no links unless it says so. -/
def ofJson? (v : Value) : Option TocRequest := do
  let [title, minLevel, maxLevel, hyperlink] ← v.slots? fields | none
  return {
    title := ← Value.optional Value.text? title
    minLevel := ← Value.required Value.uint8? minLevel
    maxLevel := ← Value.required Value.uint8? maxLevel
    hyperlink := ← Value.orElse Value.bool? false hyperlink }

/-- The fields of the request. -/
def slots (toc : TocRequest) : List (Option Value) :=
  [toc.title.map .text, some (.ofNat toc.minLevel.toNat), some (.ofNat toc.maxLevel.toNat),
    some (.bool toc.hyperlink)]

/-- Writes the request. -/
def toJson (toc : TocRequest) : Value := .record fields toc.slots

end TocRequest

namespace Block

/-- The names of the fields of a heading. -/
def headingFields : List String := ["level", "paragraph"]

/-- The names of the kinds of blocks. -/
def kinds : List String :=
  ["heading", "paragraph", "run", "table", "page_break", "toc_placeholder"]

/-- Reads a block that nests fewer than `fuel` containers around its innermost blocks. -/
def read? (mode : Strictness) : Nat → Value → Option Block
  | 0, _ => none
  | fuel + 1, v =>
    match v.tagged? mode kinds with
    | some ("heading", v) => do
      let [level, p] ← v.slots? headingFields | none
      return .heading (← Value.required Value.uint8? level)
        (← Value.required (Paragraph.ofJson? .lenient) p)
    | some ("paragraph", v) => (Paragraph.ofJson? .lenient v).map .paragraph
    | some ("run", v) => (Run.ofJson? .lenient v).map .run
    | some ("table", v) => (Table.ofJson? (read? .lenient fuel) ColorRef.ofJson? v).map .table
    | some ("page_break", v) => v.noFields?.map fun _ => .pageBreak
    | some ("toc_placeholder", v) => (TocRequest.ofJson? v).map .toc
    | _ => none

/-- Reads a block. -/
def ofJson? (mode : Strictness) (v : Value) : Option Block := read? mode v.depth v

mutual

/-- Writes a block. -/
def toJson : Block → Value
  | .heading level p =>
    .tagged "heading" headingFields [some (.ofNat level.toNat), some p.toJson]
  | .paragraph p => .tagged "paragraph" Paragraph.fields p.slots
  | .run r => .tagged "run" Run.fields r.slots
  | .table ⟨styleId, rows⟩ =>
    .tagged "table" Table.fields [styleId.map .text, some (.array (writtenRows rows))]
  | .pageBreak => .tagged "page_break" [] []
  | .toc request => .tagged "toc_placeholder" TocRequest.fields request.slots

/-- Writes each of some blocks. -/
def writtenBlocks : List Block → List Value
  | [] => []
  | b :: rest => b.toJson :: writtenBlocks rest

/-- Writes each of some cells. -/
def writtenCells : List (Cell Block ColorRef) → List Value
  | [] => []
  | ⟨blocks, shading⟩ :: rest =>
    Cell.written (writtenBlocks blocks) (shading.map ColorRef.toJson) :: writtenCells rest

/-- Writes each of some rows. -/
def writtenRows : List (Row Block ColorRef) → List Value
  | [] => []
  | ⟨cells, header⟩ :: rest => Row.written (writtenCells cells) header :: writtenRows rest

end

/-- Reads a cell. -/
def cellOfJson? : Value → Option (Cell Block ColorRef) :=
  Cell.ofJson? (ofJson? .strict) ColorRef.ofJson?

/-- Reads a row. -/
def rowOfJson? : Value → Option (Row Block ColorRef) :=
  Row.ofJson? (ofJson? .strict) ColorRef.ofJson? Row.markOrNone

/-- Reads a table. -/
def tableOfJson? : Value → Option (Table Block ColorRef) :=
  Table.ofJson? (ofJson? .strict) ColorRef.ofJson?

/-- Writes a cell. -/
def cellToJson (c : Cell Block ColorRef) : Value :=
  Cell.written (writtenBlocks c.blocks) (c.shading.map ColorRef.toJson)

/-- Writes a row. -/
def rowToJson (r : Row Block ColorRef) : Value := Row.written (writtenCells r.cells) r.header

/-- Writes a table. -/
def tableToJson (t : Table Block ColorRef) : Value :=
  .record Table.fields [t.styleId.map .text, some (.array (writtenRows t.rows))]

end Block

namespace Margins

/-- The names of the fields. -/
def fields : List String := ["top", "right", "bottom", "left"]

/-- Reads margins. -/
def ofJson? (v : Value) : Option Margins := do
  let [top, right, bottom, left] ← v.slots? fields | none
  return {
    top := ← Value.required Value.uint32? top
    right := ← Value.required Value.uint32? right
    bottom := ← Value.required Value.uint32? bottom
    left := ← Value.required Value.uint32? left }

/-- Writes margins. -/
def toJson (m : Margins) : Value :=
  .record fields
    [some (.ofNat m.top.toNat), some (.ofNat m.right.toNat), some (.ofNat m.bottom.toNat),
      some (.ofNat m.left.toNat)]

end Margins

namespace PageSetup

/-- The names of the fields. -/
def fields : List String := ["width_twips", "height_twips", "margins"]

/-- Reads a page setup. -/
def ofJson? (v : Value) : Option PageSetup := do
  let [width, height, margins] ← v.slots? fields | none
  return {
    width := ← Value.required Value.uint32? width
    height := ← Value.required Value.uint32? height
    margins := ← Value.required Margins.ofJson? margins }

/-- Writes a page setup. -/
def toJson (page : PageSetup) : Value :=
  .record fields
    [some (.ofNat page.width.toNat), some (.ofNat page.height.toNat), some page.margins.toJson]

end PageSetup

namespace Section

/-- The names of the fields. -/
def fields : List String := ["page", "blocks"]

/-- Reads a section. -/
def ofJson? (v : Value) : Option Section := do
  let [page, blocks] ← v.slots? fields | none
  return {
    page := ← Value.required PageSetup.ofJson? page
    blocks := ← Value.required (Value.list? (Block.ofJson? .strict)) blocks }

/-- Writes a section. -/
def toJson (s : Section) : Value :=
  .record fields [some s.page.toJson, some (.ofList Block.toJson s.blocks)]

end Section

namespace OutlineEntry

/-- The names of the fields. -/
def fields : List String := ["level", "text", "section", "block"]

/-- Reads an entry of an outline. -/
def ofJson? (v : Value) : Option OutlineEntry := do
  let [level, text, sectionIndex, blockIndex] ← v.slots? fields | none
  return {
    level := ← Value.required Value.uint8? level
    text := ← Value.required Value.text? text
    sectionIndex := ← Value.required (Value.natBelow? UInt64.size) sectionIndex
    blockIndex := ← Value.required (Value.natBelow? UInt64.size) blockIndex }

/-- Writes an entry of an outline. -/
def toJson (e : OutlineEntry) : Value :=
  .record fields
    [some (.ofNat e.level.toNat), some (.text e.text), some (.ofNat e.sectionIndex),
      some (.ofNat e.blockIndex)]

end OutlineEntry

namespace Document

/-- The names of the fields. -/
def fields : List String := ["title", "sections"]

/-- Reads a document. -/
def ofJson? (v : Value) : Option Document := do
  let [title, sections] ← v.slots? fields | none
  return {
    title := ← Value.required Value.text? title
    sections := ← Value.required (Value.list? Section.ofJson?) sections }

/-- Writes a document. -/
def toJson (doc : Document) : Value :=
  .record fields [some (.text doc.title), some (.ofList Section.toJson doc.sections)]

end Document

namespace StyledRun

/-- The names of the fields. -/
def fields : List String := ["text", "style"]

/-- Reads a styled run. -/
def ofJson? (mode : Strictness) (v : Value) : Option StyledRun := do
  let [text, style] ← v.slots? fields | none
  return {
    text := ← Value.required Value.text? text
    style := ← Value.required (EffectiveStyle.ofJson? mode) style }

/-- The fields of a styled run. -/
def slots (r : StyledRun) : List (Option Value) := [some (.text r.text), some r.style.toJson]

/-- Writes a styled run. -/
def toJson (r : StyledRun) : Value := .record fields r.slots

end StyledRun

namespace StyledParagraph

/-- The names of the fields. -/
def fields : List String := ["style_id", "style", "runs"]

/-- Reads a styled paragraph. -/
def ofJson? (mode : Strictness) (v : Value) : Option StyledParagraph := do
  let [styleId, style, runs] ← v.slots? fields | none
  return {
    styleId := ← Value.optional Value.text? styleId
    style := ← Value.required (EffectiveStyle.ofJson? mode) style
    runs := ← Value.required (Value.list? (StyledRun.ofJson? mode)) runs }

/-- The fields of a styled paragraph. -/
def slots (p : StyledParagraph) : List (Option Value) :=
  [p.styleId.map .text, some p.style.toJson, some (.ofList StyledRun.toJson p.runs)]

/-- Writes a styled paragraph. -/
def toJson (p : StyledParagraph) : Value := .record fields p.slots

end StyledParagraph

namespace TocEntry

/-- The names of the fields. -/
def fields : List String := ["level", "text", "style"]

/-- Reads an entry of a table of contents. -/
def ofJson? (mode : Strictness) (v : Value) : Option TocEntry := do
  let [level, text, style] ← v.slots? fields | none
  return {
    level := ← Value.required Value.uint8? level
    text := ← Value.required Value.text? text
    style := ← Value.required (EffectiveStyle.ofJson? mode) style }

/-- Writes an entry of a table of contents. -/
def toJson (e : TocEntry) : Value :=
  .record fields [some (.ofNat e.level.toNat), some (.text e.text), some e.style.toJson]

end TocEntry

namespace StyledToc

/-- The names of the fields. -/
def fields : List String := ["title", "entries", "hyperlink"]

/-- Reads a styled table of contents. -/
def ofJson? (mode : Strictness) (v : Value) : Option StyledToc := do
  let [title, entries, hyperlink] ← v.slots? fields | none
  return {
    title := ← Value.optional (StyledParagraph.ofJson? mode) title
    entries := ← Value.required (Value.list? (TocEntry.ofJson? mode)) entries
    hyperlink := ← Value.required Value.bool? hyperlink }

/-- The fields of a styled table of contents. -/
def slots (toc : StyledToc) : List (Option Value) :=
  [toc.title.map StyledParagraph.toJson, some (.ofList TocEntry.toJson toc.entries),
    some (.bool toc.hyperlink)]

/-- Writes a styled table of contents. -/
def toJson (toc : StyledToc) : Value := .record fields toc.slots

end StyledToc

namespace StyledBlock

/-- The names of the fields of a heading. -/
def headingFields : List String := ["level", "paragraph"]

/-- The names of the fields of a table. -/
def tableFields : List String := ["rows"]

/-- The names of the kinds of blocks. -/
def kinds : List String :=
  ["heading", "paragraph", "run", "table", "page_break", "table_of_contents"]

/-- Reads a block that nests fewer than `fuel` containers around its innermost blocks. -/
def read? (mode : Strictness) : Nat → Value → Option StyledBlock
  | 0, _ => none
  | fuel + 1, v =>
    match v.tagged? mode kinds with
    | some ("heading", v) => do
      let [level, p] ← v.slots? headingFields | none
      return .heading (← Value.required Value.uint8? level)
        (← Value.required (StyledParagraph.ofJson? .lenient) p)
    | some ("paragraph", v) => (StyledParagraph.ofJson? .lenient v).map .paragraph
    | some ("run", v) => (StyledRun.ofJson? .lenient v).map .run
    | some ("table", v) => do
      let [rows] ← v.slots? tableFields | none
      return .table
        (← Value.required
          (Value.list? (Row.ofJson? (read? .lenient fuel) Color.ofJson? Row.mark)) rows)
    | some ("page_break", v) => v.noFields?.map fun _ => .pageBreak
    | some ("table_of_contents", v) => (StyledToc.ofJson? .lenient v).map .toc
    | _ => none

/-- Reads a styled block. -/
def ofJson? (mode : Strictness) (v : Value) : Option StyledBlock := read? mode v.depth v

mutual

/-- Writes a styled block. -/
def toJson : StyledBlock → Value
  | .heading level p =>
    .tagged "heading" headingFields [some (.ofNat level.toNat), some p.toJson]
  | .paragraph p => .tagged "paragraph" StyledParagraph.fields p.slots
  | .run r => .tagged "run" StyledRun.fields r.slots
  | .table rows => .tagged "table" tableFields [some (.array (writtenRows rows))]
  | .pageBreak => .tagged "page_break" [] []
  | .toc contents => .tagged "table_of_contents" StyledToc.fields contents.slots

/-- Writes each of some blocks. -/
def writtenBlocks : List StyledBlock → List Value
  | [] => []
  | b :: rest => b.toJson :: writtenBlocks rest

/-- Writes each of some cells. -/
def writtenCells : List (Cell StyledBlock Color) → List Value
  | [] => []
  | ⟨blocks, shading⟩ :: rest =>
    Cell.written (writtenBlocks blocks) (shading.map Color.toJson) :: writtenCells rest

/-- Writes each of some rows. -/
def writtenRows : List (Row StyledBlock Color) → List Value
  | [] => []
  | ⟨cells, header⟩ :: rest => Row.written (writtenCells cells) header :: writtenRows rest

end

/-- Reads a cell. -/
def cellOfJson? : Value → Option (Cell StyledBlock Color) :=
  Cell.ofJson? (ofJson? .strict) Color.ofJson?

/-- Reads a row. -/
def rowOfJson? : Value → Option (Row StyledBlock Color) :=
  Row.ofJson? (ofJson? .strict) Color.ofJson? Row.mark

/-- Reads the rows of a table. -/
def tableOfJson? (v : Value) : Option (List (Row StyledBlock Color)) := do
  let [rows] ← v.slots? tableFields | none
  Value.required (Value.list? rowOfJson?) rows

/-- Writes a cell. -/
def cellToJson (c : Cell StyledBlock Color) : Value :=
  Cell.written (writtenBlocks c.blocks) (c.shading.map Color.toJson)

/-- Writes a row. -/
def rowToJson (r : Row StyledBlock Color) : Value := Row.written (writtenCells r.cells) r.header

/-- Writes the rows of a table. -/
def tableToJson (rows : List (Row StyledBlock Color)) : Value :=
  .record tableFields [some (.array (writtenRows rows))]

end StyledBlock

namespace StyledSection

/-- The names of the fields. -/
def fields : List String := ["page", "blocks"]

/-- Reads a styled section. -/
def ofJson? (v : Value) : Option StyledSection := do
  let [page, blocks] ← v.slots? fields | none
  return {
    page := ← Value.required PageSetup.ofJson? page
    blocks := ← Value.required (Value.list? (StyledBlock.ofJson? .strict)) blocks }

/-- Writes a styled section. -/
def toJson (s : StyledSection) : Value :=
  .record fields [some s.page.toJson, some (.ofList StyledBlock.toJson s.blocks)]

end StyledSection

namespace StyledDocument

/-- The names of the fields. -/
def fields : List String := ["title", "theme", "styles", "sections"]

/-- Reads a styled document. -/
def ofJson? (v : Value) : Option StyledDocument := do
  let [title, theme, styles, sections] ← v.slots? fields | none
  return {
    title := ← Value.required Value.text? title
    theme := ← Value.required Value.text? theme
    styles := ← Value.required (Value.list? StyleDefinition.ofJson?) styles
    sections := ← Value.required (Value.list? StyledSection.ofJson?) sections }

/-- Writes a styled document. -/
def toJson (doc : StyledDocument) : Value :=
  .record fields
    [some (.text doc.title), some (.text doc.theme),
      some (.ofList StyleDefinition.toJson doc.styles),
      some (.ofList StyledSection.toJson doc.sections)]

end StyledDocument

end Folio
