import Folio.Document.Styled
import Folio.Style.Styling

/-!
# Styling documents

Every run and paragraph of a document gets its properties from layers, from below: those that
tables around it declare, the outermost lowest, those of its paragraph, and its own. A table of
contents lists the outline of the whole document. The first failure in the order of the document
counts, where a paragraph's runs come before the paragraph itself and a cell's blocks before its
shading.
-/

namespace Folio

/-- What tables around an element declare. -/
abbrev Surroundings := StyleProperties

/-- Styles a run whose surroundings declare `around`. -/
def Run.styled (styling : Styling) (around : Surroundings) (run : Run) :
    Except BuildError StyledRun := do
  return ⟨run.text, ← styling.resolveRun around run.styleId run.overrides⟩

/-- Styles a paragraph in its surroundings. -/
def Paragraph.styled (styling : Styling) (around : Surroundings) (p : Paragraph) :
    Except BuildError StyledParagraph := do
  let own ← styling.declared p.styleId p.overrides
  let runs ← p.runs.mapM (Run.styled styling (own.above around))
  return ⟨p.styleId, ← styling.settle (own.above around), runs⟩

namespace TocRequest

/-- The title of a table of contents, in the style for such titles if that is registered. -/
def titleParagraph (styling : Styling) (text : String) : Paragraph :=
  { Paragraph.ofText text with styleId := styling.sheet.registered? tocTitleStyleId }

/-- Styles an entry, in the style of its level if that is registered. -/
def entry (styling : Styling) (e : OutlineEntry) : Except BuildError TocEntry := do
  let own ← styling.declared (styling.sheet.registered? (tocStyleId e.level)) {}
  return ⟨e.level, e.text, ← styling.settle own⟩

/-- Styles a table of contents; only its title takes part in its surroundings. -/
def styled (styling : Styling) (outline : List OutlineEntry) (around : Surroundings)
    (toc : TocRequest) : Except BuildError StyledToc := do
  let title ← toc.title.mapM fun text => (titleParagraph styling text).styled styling around
  let entries ← (outline.filter fun e => toc.includes e.level).mapM (entry styling)
  return ⟨title, entries, toc.hyperlink⟩

end TocRequest

mutual

/-- Styles a block in its surroundings. -/
def Block.styled (styling : Styling) (outline : List OutlineEntry) (around : Surroundings) :
    Block → Except BuildError StyledBlock
  | .heading level p => return .heading level (← p.styled styling around)
  | .paragraph p => return .paragraph (← p.styled styling around)
  | .run r => return .run (← r.styled styling around)
  | .table ⟨styleId, rows⟩ => do
    let own ← styling.declared styleId {}
    return .table (← styledRows styling outline (own.above around) rows)
  | .pageBreak => return .pageBreak
  | .toc request => return .toc (← request.styled styling outline around)

/-- Styles blocks in their order. -/
def styledBlocks (styling : Styling) (outline : List OutlineEntry) (around : Surroundings) :
    List Block → Except BuildError (List StyledBlock)
  | [] => return []
  | b :: rest => do
    let b ← b.styled styling outline around
    return b :: (← styledBlocks styling outline around rest)

/-- Styles the cells of a row in their order. -/
def styledCells (styling : Styling) (outline : List OutlineEntry) (around : Surroundings) :
    List (Cell Block ColorRef) → Except BuildError (List (Cell StyledBlock Color))
  | [] => return []
  | ⟨blocks, shading⟩ :: rest => do
    let blocks ← styledBlocks styling outline around blocks
    let shading ← shading.mapM (ColorRef.resolve styling.theme)
    return ⟨blocks, shading⟩ :: (← styledCells styling outline around rest)

/-- Styles the rows of a table in their order. -/
def styledRows (styling : Styling) (outline : List OutlineEntry) (around : Surroundings) :
    List (Row Block ColorRef) → Except BuildError (List (Row StyledBlock Color))
  | [] => return []
  | ⟨cells, header⟩ :: rest => do
    let cells ← styledCells styling outline around cells
    return ⟨cells, header⟩ :: (← styledRows styling outline around rest)

end

/-- Styles a section. -/
def Section.styled (styling : Styling) (outline : List OutlineEntry) (s : Section) :
    Except BuildError StyledSection := do
  return ⟨s.page, ← styledBlocks styling outline {} s.blocks⟩

/-- Styles a document. -/
def Document.styled (styling : Styling) (doc : Document) : Except BuildError StyledDocument := do
  let sections ← doc.sections.mapM (Section.styled styling doc.outline)
  return ⟨doc.title, styling.theme.name, styling.definitions, sections⟩

end Folio
