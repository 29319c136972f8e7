import Folio.Proofs.Style.Order
import Folio.Document.Styling

/-!
# The structure of a styled document

Styling decides how a document looks and nothing else. What is left of a styled document without the
properties in effect, the colours and the entries of tables of contents is what is left of the
document itself: the same sections, and in them at any depth the same blocks with the same texts.
-/

namespace Folio

/-- The style that a paragraph names and the texts of its runs. -/
structure BareParagraph where
  /-- The id of the style. -/
  styleId : Option String
  /-- The texts of the runs in their order. -/
  texts : List String
  deriving DecidableEq

/-- A block without properties; a table of contents keeps its title and whether it has links. -/
inductive BareBlock where
  | heading (level : UInt8) (p : BareParagraph)
  | paragraph (p : BareParagraph)
  | run (text : String)
  | table (rows : List (Row BareBlock Unit))
  | pageBreak
  | toc (title : Option String) (hyperlink : Bool)

/-- Blocks without properties on pages of one setup. -/
structure BareSection where
  /-- The pages. -/
  page : PageSetup
  /-- The blocks in their order. -/
  blocks : List BareBlock

/-- A document without properties. -/
structure BareDocument where
  /-- The title. -/
  title : String
  /-- The sections in their order. -/
  sections : List BareSection

/-- Whether a cell is shaded, without the colour. -/
def bareShading {γ : Type} (shading : Option γ) : Option Unit := shading.map fun _ => ()

/-- A paragraph without properties. -/
def Paragraph.bare (p : Paragraph) : BareParagraph := ⟨p.styleId, p.runs.map (·.text)⟩

namespace Block

mutual

/-- A block without properties. -/
def bare : Block → BareBlock
  | .heading level p => .heading level p.bare
  | .paragraph p => .paragraph p.bare
  | .run r => .run r.text
  | .table ⟨_, rows⟩ => .table (bareRows rows)
  | .pageBreak => .pageBreak
  | .toc request => .toc request.title request.hyperlink

/-- Blocks without properties. -/
def bareAll : List Block → List BareBlock
  | [] => []
  | b :: rest => b.bare :: bareAll rest

/-- The cells of a row without properties. -/
def bareCells : List (Cell Block ColorRef) → List (Cell BareBlock Unit)
  | [] => []
  | ⟨blocks, shading⟩ :: rest => ⟨bareAll blocks, bareShading shading⟩ :: bareCells rest

/-- The rows of a table without properties. -/
def bareRows : List (Row Block ColorRef) → List (Row BareBlock Unit)
  | [] => []
  | ⟨cells, header⟩ :: rest => ⟨bareCells cells, header⟩ :: bareRows rest

end

end Block

/-- A section without properties. -/
def Section.bare (s : Section) : BareSection := ⟨s.page, Block.bareAll s.blocks⟩

/-- A document without properties. -/
def Document.bare (doc : Document) : BareDocument := ⟨doc.title, doc.sections.map Section.bare⟩

/-- A styled paragraph without properties. -/
def StyledParagraph.bare (p : StyledParagraph) : BareParagraph := ⟨p.styleId, p.runs.map (·.text)⟩

namespace StyledBlock

mutual

/-- A styled block without properties. -/
def bare : StyledBlock → BareBlock
  | .heading level p => .heading level p.bare
  | .paragraph p => .paragraph p.bare
  | .run r => .run r.text
  | .table rows => .table (bareRows rows)
  | .pageBreak => .pageBreak
  | .toc contents => .toc (contents.title.map (·.plainText)) contents.hyperlink

/-- Styled blocks without properties. -/
def bareAll : List StyledBlock → List BareBlock
  | [] => []
  | b :: rest => b.bare :: bareAll rest

/-- The cells of a styled row without properties. -/
def bareCells : List (Cell StyledBlock Color) → List (Cell BareBlock Unit)
  | [] => []
  | ⟨blocks, shading⟩ :: rest => ⟨bareAll blocks, bareShading shading⟩ :: bareCells rest

/-- The rows of a styled table without properties. -/
def bareRows : List (Row StyledBlock Color) → List (Row BareBlock Unit)
  | [] => []
  | ⟨cells, header⟩ :: rest => ⟨bareCells cells, header⟩ :: bareRows rest

end

end StyledBlock

/-- A styled section without properties. -/
def StyledSection.bare (s : StyledSection) : BareSection := ⟨s.page, StyledBlock.bareAll s.blocks⟩

/-- A styled document without properties. -/
def StyledDocument.bare (doc : StyledDocument) : BareDocument :=
  ⟨doc.title, doc.sections.map StyledSection.bare⟩

variable {styling : Styling} {outline : List OutlineEntry}

/-- Styling keeps the words of a run. -/
theorem Run.text_of_styled {around : Surroundings} {r : Run} {r' : StyledRun}
    (h : r.styled styling around = .ok r') : r'.text = r.text := by
  obtain ⟨_, _, h⟩ := bind_eq_ok_iff.mp h
  cases h
  rfl

/-- A styled paragraph names the same style, and its runs have the same texts. -/
theorem Paragraph.bare_of_styled {around : Surroundings} {p : Paragraph} {p' : StyledParagraph}
    (h : p.styled styling around = .ok p') : p'.bare = p.bare := by
  obtain ⟨_, _, h⟩ := bind_eq_ok_iff.mp h
  obtain ⟨runs, hruns, h⟩ := bind_eq_ok_iff.mp h
  obtain ⟨_, _, h⟩ := bind_eq_ok_iff.mp h
  cases h
  have htexts := map_eq_map_of_mapM (fun _ _ => Run.text_of_styled) hruns
  exact congrArg (BareParagraph.mk p.styleId) htexts

/-- Styling keeps the words of a paragraph. -/
theorem Paragraph.plainText_of_styled {around : Surroundings} {p : Paragraph} {p' : StyledParagraph}
    (h : p.styled styling around = .ok p') : p'.plainText = p.plainText :=
  congrArg (fun bare : BareParagraph => String.join bare.texts) (Paragraph.bare_of_styled h)

namespace TocRequest

/-- A styled table of contents has a title of the same text, if there is one, and the same kind of
entries. -/
theorem title_hyperlink_of_styled {around : Surroundings} {toc : TocRequest} {contents : StyledToc}
    (h : toc.styled styling outline around = .ok contents) :
    contents.title.map (·.plainText) = toc.title ∧ contents.hyperlink = toc.hyperlink := by
  obtain ⟨title, htitle, h⟩ := bind_eq_ok_iff.mp h
  obtain ⟨entries, _, h⟩ := bind_eq_ok_iff.mp h
  cases h
  refine ⟨?_, rfl⟩
  obtain ⟨request, _, _, _⟩ := toc
  cases (option_mapM_eq_ok_iff fun _ _ => Iff.rfl).mp htitle with
  | none => rfl
  | some hp =>
    refine congrArg some ((Paragraph.plainText_of_styled hp).trans ?_)
    simp [titleParagraph, Paragraph.plainText, Paragraph.ofText]

end TocRequest

/-- Resolving a shading keeps whether there is one. -/
theorem bareShading_of_resolve {shading : Option ColorRef} {shading' : Option Color}
    (h : shading.mapM (ColorRef.resolve styling.theme) = .ok shading') :
    bareShading shading' = bareShading shading := by
  cases (option_mapM_eq_ok_iff fun _ _ => Iff.rfl).mp h with
  | none => rfl
  | some _ => rfl

mutual

/-- Styling keeps the bare form of a block. -/
theorem Block.bare_of_styled {around : Surroundings} (b : Block) {b' : StyledBlock}
    (h : b.styled styling outline around = .ok b') : b'.bare = b.bare := by
  unfold Block.styled at h
  cases b with
  | heading level p =>
    obtain ⟨p', hp, h⟩ := bind_eq_ok_iff.mp h
    cases h
    exact congrArg (BareBlock.heading level) (Paragraph.bare_of_styled hp)
  | paragraph p =>
    obtain ⟨p', hp, h⟩ := bind_eq_ok_iff.mp h
    cases h
    exact congrArg BareBlock.paragraph (Paragraph.bare_of_styled hp)
  | run r =>
    obtain ⟨r', hr, h⟩ := bind_eq_ok_iff.mp h
    cases h
    exact congrArg BareBlock.run (Run.text_of_styled hr)
  | table t =>
    obtain ⟨styleId, rows⟩ := t
    obtain ⟨own, _, h⟩ := bind_eq_ok_iff.mp h
    obtain ⟨rows', hrows, h⟩ := bind_eq_ok_iff.mp h
    cases h
    exact congrArg BareBlock.table (Block.bareRows_of_styled rows hrows)
  | pageBreak =>
    cases h
    rfl
  | toc request =>
    obtain ⟨contents, hc, h⟩ := bind_eq_ok_iff.mp h
    cases h
    obtain ⟨htitle, hlink⟩ := TocRequest.title_hyperlink_of_styled hc
    exact congrArg₂ BareBlock.toc htitle hlink
  termination_by structural b

/-- Styling keeps the bare forms of blocks. -/
theorem Block.bareAll_of_styled {around : Surroundings} (blocks : List Block)
    {blocks' : List StyledBlock} (h : styledBlocks styling outline around blocks = .ok blocks') :
    StyledBlock.bareAll blocks' = Block.bareAll blocks := by
  cases blocks with
  | nil =>
    cases h
    rfl
  | cons b rest =>
    obtain ⟨b', hb, h⟩ := bind_eq_ok_iff.mp h
    obtain ⟨rest', hrest, h⟩ := bind_eq_ok_iff.mp h
    cases h
    exact congrArg₂ List.cons (Block.bare_of_styled b hb) (Block.bareAll_of_styled rest hrest)
  termination_by structural blocks

/-- Styling keeps the bare forms of cells. -/
theorem Block.bareCells_of_styled {around : Surroundings} (cells : List (Cell Block ColorRef))
    {cells' : List (Cell StyledBlock Color)}
    (h : styledCells styling outline around cells = .ok cells') :
    StyledBlock.bareCells cells' = Block.bareCells cells := by
  cases cells with
  | nil =>
    cases h
    rfl
  | cons c rest =>
    obtain ⟨blocks, shading⟩ := c
    obtain ⟨blocks', hblocks, h⟩ := bind_eq_ok_iff.mp h
    obtain ⟨shading', hshading, h⟩ := bind_eq_ok_iff.mp h
    obtain ⟨rest', hrest, h⟩ := bind_eq_ok_iff.mp h
    cases h
    have hcell := congrArg₂ Cell.mk (Block.bareAll_of_styled blocks hblocks)
      (bareShading_of_resolve hshading)
    exact congrArg₂ List.cons hcell (Block.bareCells_of_styled rest hrest)
  termination_by structural cells

/-- Styling keeps the bare forms of rows. -/
theorem Block.bareRows_of_styled {around : Surroundings} (rows : List (Row Block ColorRef))
    {rows' : List (Row StyledBlock Color)}
    (h : styledRows styling outline around rows = .ok rows') :
    StyledBlock.bareRows rows' = Block.bareRows rows := by
  cases rows with
  | nil =>
    cases h
    rfl
  | cons r rest =>
    obtain ⟨cells, header⟩ := r
    obtain ⟨cells', hcells, h⟩ := bind_eq_ok_iff.mp h
    obtain ⟨rest', hrest, h⟩ := bind_eq_ok_iff.mp h
    cases h
    have hrow := congrArg (Row.mk · header) (Block.bareCells_of_styled cells hcells)
    exact congrArg₂ List.cons hrow (Block.bareRows_of_styled rest hrest)
  termination_by structural rows

end

/-- Styling keeps the bare form of a section. -/
theorem Section.bare_of_styled {s : Section} {s' : StyledSection}
    (h : s.styled styling outline = .ok s') : s'.bare = s.bare := by
  obtain ⟨blocks, hblocks, h⟩ := bind_eq_ok_iff.mp h
  cases h
  exact congrArg (BareSection.mk s.page) (Block.bareAll_of_styled s.blocks hblocks)

/-- What is left of a styled document without properties is what is left of the document. -/
theorem Document.bare_of_styled {doc : Document} {out : StyledDocument}
    (h : doc.styled styling = .ok out) :
    out.bare = doc.bare ∧ out.styles = styling.definitions := by
  obtain ⟨sections, hsections, h⟩ := bind_eq_ok_iff.mp h
  cases h
  have hbare := map_eq_map_of_mapM (fun _ _ => Section.bare_of_styled) hsections
  exact ⟨congrArg (BareDocument.mk doc.title) hbare, rfl⟩

namespace Stylesheet

/-- With a stylesheet that is bound to a theme, a styled document has the structure of the document:
title, sections with their pages, and at any depth the same blocks in the same order, with the same
levels, style ids of paragraphs, texts, headers and shaded cells. With it go the registered styles,
each once, in ascending order of their ids. -/
theorem Reachable.styled_keeps_structure {sheet : Stylesheet} {theme : Theme} {styling : Styling}
    (h : sheet.Reachable) (hb : sheet.bind theme = .ok styling) {doc : Document}
    {out : StyledDocument} (hs : doc.styled styling = .ok out) :
    out.bare = doc.bare ∧ (out.styles.Pairwise fun a b => a.id < b.id) ∧
      ∀ d, d ∈ out.styles ↔ sheet.get? d.id = some d := by
  obtain ⟨hbare, hstyles⟩ := Document.bare_of_styled hs
  obtain ⟨rfl, _⟩ := (bind_eq_ok_iff_fits h.coherent.acyclic).mp hb
  rw [hstyles]
  exact ⟨hbare, h.coherent.pairwise_values, fun d => h.coherent.mem_values_iff⟩

/-- A heading and a table of contents above a table with a shaded header, whose second row holds a
table of its own. -/
def prices : Document :=
  let inner : Table Block ColorRef :=
    { rows := [{ cells := [{ blocks := [.run { text := "net" }, .pageBreak] }] }] }
  let header : Row Block ColorRef :=
    { cells := [{ blocks := [.paragraph (.ofText "Price")], shading := some (.literal .white) }, {}]
      header := true }
  let outer : Table Block ColorRef :=
    { styleId := some "Quote", rows := [header, { cells := [{ blocks := [.table inner] }] }] }
  { title := "Prices"
    sections := [{
      page := .a4
      blocks := [.heading 1 (.ofText "All prices"), .toc { title := some "Contents" },
        .table outer] }, ⟨.a4Landscape, []⟩] }

/-- The prices keep their structure when they are styled as a letter. -/
theorem Reachable.styled_keeps_structure_prices :
    letter.Reachable ∧ ∃ styling out, letter.bind plainTheme = .ok styling ∧
      prices.styled styling = .ok out ∧ out.bare = prices.bare ∧ out.styles = [body, quote] := by
  obtain ⟨styling, hb⟩ : ∃ styling, letter.bind plainTheme = .ok styling :=
    exists_eq_ok_of_isOk (by decide +kernel)
  obtain ⟨rfl, _⟩ := (bind_eq_ok_iff_fits reachable_letter.coherent.acyclic).mp hb
  obtain ⟨out, hout⟩ : ∃ out, prices.styled ⟨plainTheme, letter⟩ = .ok out :=
    exists_eq_ok_of_isOk (by decide +kernel)
  obtain ⟨hbare, _⟩ := reachable_letter.styled_keeps_structure hb hout
  have hstyles : letter.styles.values = [body, quote] := by decide +kernel
  exact ⟨reachable_letter, _, out, hb, hout, hbare, (Document.bare_of_styled hout).2.trans hstyles⟩

end Stylesheet

end Folio
