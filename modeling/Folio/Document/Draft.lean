import Folio.BuildError
import Folio.Document.Basic

/-!
# Drafts of documents

A document is written step by step: a step begins a section or adds a block to the last section.
Blocks that come before any section get one of upright A4 pages. A heading that lies too deep is
left out, and the first of them is what finishing the draft reports.
-/

namespace Folio

/-- The lowest level that a heading may have. -/
def maxHeadingLevel : UInt8 := 2

/-- One step in writing a document. -/
inductive DraftStep where
  /-- Begins a section. -/
  | beginSection (page : PageSetup)
  /-- Adds a heading of plain text. -/
  | heading (level : UInt8) (text : String)
  /-- Adds a heading with runs and perhaps a style of its own. -/
  | headingParagraph (level : UInt8) (p : Paragraph)
  | paragraph (p : Paragraph)
  /-- Adds a paragraph of plain text. -/
  | text (s : String)
  | run (r : Run)
  | table (t : Table Block ColorRef)
  | pageBreak
  | toc (request : TocRequest)

/-- A document under construction. -/
structure Draft where
  /-- The title. -/
  title : String
  /-- The sections so far. -/
  sections : List Section := []
  /-- The first error so far. -/
  error : Option BuildError := none

namespace Draft

/-- The draft of a document without sections. -/
def new (title : String) : Draft := { title }

/-- Begins a section. -/
def beginSection (draft : Draft) (page : PageSetup) : Draft :=
  { draft with sections := draft.sections ++ [⟨page, []⟩] }

/-- Adds a block to the last of some sections, or to a new one where there are none. -/
def addBlock (b : Block) : List Section → List Section
  | [] => [⟨.a4, [b]⟩]
  | [s] => [{ s with blocks := s.blocks ++ [b] }]
  | s :: rest => s :: addBlock b rest

/-- Adds a block. -/
def push (draft : Draft) (b : Block) : Draft :=
  { draft with sections := addBlock b draft.sections }

/-- Adds a heading, in the style of its level unless it names another. -/
def heading (draft : Draft) (level : UInt8) (p : Paragraph) : Draft :=
  if maxHeadingLevel < level then
    { draft with error := draft.error.or (some (.headingTooDeep level)) }
  else
    draft.push (.heading level { p with styleId := p.styleId.or (some (headingStyleId level)) })

/-- Takes one step. -/
def apply (draft : Draft) : DraftStep → Draft
  | .beginSection page => draft.beginSection page
  | .heading level text => draft.heading level (.ofText text)
  | .headingParagraph level p => draft.heading level p
  | .paragraph p => draft.push (.paragraph p)
  | .text s => draft.push (.paragraph (.ofText s))
  | .run r => draft.push (.run r)
  | .table t => draft.push (.table t)
  | .pageBreak => draft.push .pageBreak
  | .toc request => draft.push (.toc request)

/-- The document of a draft without errors. -/
def finish (draft : Draft) : Except BuildError Document :=
  match draft.error with
  | some e => .error e
  | none => .ok ⟨draft.title, draft.sections⟩

end Draft

/-- The document that some steps write. -/
def Document.ofSteps (title : String) (steps : List DraftStep) : Except BuildError Document :=
  (steps.foldl Draft.apply (.new title)).finish

end Folio
