import Folio.Document.Styling
import Folio.Proofs.Style.Binding

/-!
# Layers of a document

What surrounds an element of a document is a list of layers, the innermost first. A table puts the
chain of its style on top of that list for everything in its cells, and a paragraph puts its own
layers on top of it for its runs. Styling gives each element the nearest values of its own layers,
the layers around it and the defaults, however deep it stands.
-/

namespace Folio

open StyleProperties

/-- A run keeps its text and has the nearest values of its overrides, the chain of its style, the
layers around it and the defaults. Without a style the chain is empty. -/
def Run.StyledAs (styling : Styling) (around : List StyleProperties) (r : Run) (r' : StyledRun) :
    Prop :=
  r'.text = r.text ∧ ∃ path, Ascends styling.sheet.styles r.styleId path none ∧
    NearestWins styling.theme
      (r.overrides :: path.map (·.properties) ++ around ++ [styling.sheet.defaults]) r'.style

/-- A paragraph has the nearest values of its overrides, the chain of its style, the layers around it
and the defaults; the former two lie around its runs as well. -/
def Paragraph.StyledAs (styling : Styling) (around : List StyleProperties) (p : Paragraph)
    (p' : StyledParagraph) : Prop :=
  p'.styleId = p.styleId ∧ ∃ path, Ascends styling.sheet.styles p.styleId path none ∧
    NearestWins styling.theme
      (p.overrides :: path.map (·.properties) ++ around ++ [styling.sheet.defaults]) p'.style ∧
    List.Forall₂ (Run.StyledAs styling (p.overrides :: path.map (·.properties) ++ around))
      p.runs p'.runs

namespace TocRequest

/-- The title of a table of contents is one run. It has the nearest values of the chain of the style
for such titles, if that is registered, the layers around the table of contents and the defaults. -/
def TitleStyledAs (styling : Styling) (around : List StyleProperties) (text : String)
    (title : StyledParagraph) : Prop :=
  ∃ path style,
    Ascends styling.sheet.styles (styling.sheet.registered? tocTitleStyleId) path none ∧
    NearestWins styling.theme
      (path.map (·.properties) ++ around ++ [styling.sheet.defaults]) style ∧
    title = ⟨styling.sheet.registered? tocTitleStyleId, style, [⟨text, style⟩]⟩

/-- An entry has the nearest values of the chain of the style of its level, if that is registered,
and the defaults. -/
def EntryStyledAs (styling : Styling) (e : OutlineEntry) (e' : TocEntry) : Prop :=
  e'.level = e.level ∧ e'.text = e.text ∧ ∃ path,
    Ascends styling.sheet.styles (styling.sheet.registered? (tocStyleId e.level)) path none ∧
    NearestWins styling.theme (path.map (·.properties) ++ [styling.sheet.defaults]) e'.style

/-- A table of contents has an entry for each heading that it lists. Only its title lies in the
layers around it. -/
structure StyledAs (styling : Styling) (outline : List OutlineEntry)
    (around : List StyleProperties) (toc : TocRequest) (toc' : StyledToc) : Prop where
  title : Option.Rel (TitleStyledAs styling around) toc.title toc'.title
  entries :
    List.Forall₂ (EntryStyledAs styling) (outline.filter fun e => toc.includes e.level) toc'.entries
  hyperlink : toc'.hyperlink = toc.hyperlink

end TocRequest

mutual

/-- Each block has its values from the layers that the tables around it declare, the innermost
first. -/
inductive Block.StyledAs (styling : Styling) (outline : List OutlineEntry) :
    List StyleProperties → Block → StyledBlock → Prop
  | heading {tables : List StyleProperties} {level : UInt8} {p : Paragraph} {p' : StyledParagraph} :
      p.StyledAs styling tables p' →
      Block.StyledAs styling outline tables (.heading level p) (.heading level p')
  | paragraph {tables : List StyleProperties} {p : Paragraph} {p' : StyledParagraph} :
      p.StyledAs styling tables p' →
      Block.StyledAs styling outline tables (.paragraph p) (.paragraph p')
  | run {tables : List StyleProperties} {r : Run} {r' : StyledRun} :
      r.StyledAs styling tables r' →
      Block.StyledAs styling outline tables (.run r) (.run r')
  | table {tables : List StyleProperties} {styleId : Option String} {path : List StyleDefinition}
      {rows : List (Row Block ColorRef)} {rows' : List (Row StyledBlock Color)} :
      Ascends styling.sheet.styles styleId path none →
      RowsStyledAs styling outline (path.map (·.properties) ++ tables) rows rows' →
      Block.StyledAs styling outline tables (.table ⟨styleId, rows⟩) (.table rows')
  | pageBreak {tables : List StyleProperties} :
      Block.StyledAs styling outline tables .pageBreak .pageBreak
  | toc {tables : List StyleProperties} {request : TocRequest} {contents : StyledToc} :
      request.StyledAs styling outline tables contents →
      Block.StyledAs styling outline tables (.toc request) (.toc contents)

/-- Blocks are styled one by one. -/
inductive BlocksStyledAs (styling : Styling) (outline : List OutlineEntry) :
    List StyleProperties → List Block → List StyledBlock → Prop
  | nil {tables : List StyleProperties} : BlocksStyledAs styling outline tables [] []
  | cons {tables : List StyleProperties} {b : Block} {b' : StyledBlock} {rest : List Block}
      {rest' : List StyledBlock} :
      b.StyledAs styling outline tables b' →
      BlocksStyledAs styling outline tables rest rest' →
      BlocksStyledAs styling outline tables (b :: rest) (b' :: rest')

/-- The cells of a row lie in the same layers, and their shadings are looked up in the theme. -/
inductive CellsStyledAs (styling : Styling) (outline : List OutlineEntry) :
    List StyleProperties → List (Cell Block ColorRef) → List (Cell StyledBlock Color) → Prop
  | nil {tables : List StyleProperties} : CellsStyledAs styling outline tables [] []
  | cons {tables : List StyleProperties} {blocks : List Block} {blocks' : List StyledBlock}
      {shading : Option ColorRef} {shading' : Option Color} {rest : List (Cell Block ColorRef)}
      {rest' : List (Cell StyledBlock Color)} :
      BlocksStyledAs styling outline tables blocks blocks' →
      Option.Rel (fun c c' => c.resolve styling.theme = .ok c') shading shading' →
      CellsStyledAs styling outline tables rest rest' →
      CellsStyledAs styling outline tables (⟨blocks, shading⟩ :: rest) (⟨blocks', shading'⟩ :: rest')

/-- The rows of a table lie in the same layers. -/
inductive RowsStyledAs (styling : Styling) (outline : List OutlineEntry) :
    List StyleProperties → List (Row Block ColorRef) → List (Row StyledBlock Color) → Prop
  | nil {tables : List StyleProperties} : RowsStyledAs styling outline tables [] []
  | cons {tables : List StyleProperties} {cells : List (Cell Block ColorRef)}
      {cells' : List (Cell StyledBlock Color)} {header : Bool} {rest : List (Row Block ColorRef)}
      {rest' : List (Row StyledBlock Color)} :
      CellsStyledAs styling outline tables cells cells' →
      RowsStyledAs styling outline tables rest rest' →
      RowsStyledAs styling outline tables (⟨cells, header⟩ :: rest) (⟨cells', header⟩ :: rest')

end

/-- No table lies around the blocks of a section. -/
structure Section.StyledAs (styling : Styling) (outline : List OutlineEntry) (s : Section)
    (s' : StyledSection) : Prop where
  page : s'.page = s.page
  blocks : BlocksStyledAs styling outline [] s.blocks s'.blocks

/-- A document is styled section by section, and its outline is known to all tables of contents. -/
structure Document.StyledAs (styling : Styling) (doc : Document) (out : StyledDocument) : Prop where
  title : out.title = doc.title
  theme : out.theme = styling.theme.name
  styles : out.styles = styling.definitions
  sections : List.Forall₂ (Section.StyledAs styling doc.outline) doc.sections out.sections

section

variable {styling : Styling} {outline : List OutlineEntry} {around : List StyleProperties}

/-- Without overrides and a style, a run has what its surroundings declare. -/
theorem Styling.resolveRun_none_empty {around : StyleProperties} :
    styling.resolveRun around none {} = styling.settle around := by
  have hstep : styling.resolveRun around none {} =
      styling.settle ((({} : StyleProperties)).above around) := rfl
  rw [hstep, empty_above]

/-- A run is styled exactly as its layers say. -/
theorem Run.styled_eq_ok_iff (h : Acyclic styling.sheet.styles) {r : Run} {r' : StyledRun} :
    r.styled styling (stack around) = .ok r' ↔ r.StyledAs styling around r' := by
  unfold Run.styled Run.StyledAs
  rw [bind_eq_ok_iff]
  simp only [← Styling.resolveRun_eq_ok_iff h]
  constructor
  · rintro ⟨s, hs, hr⟩
    cases hr
    exact ⟨rfl, hs⟩
  · rintro ⟨htext, hs⟩
    exact ⟨r'.style, hs, by rw [← htext]; rfl⟩

/-- Runs are styled one by one as their layers say. -/
theorem runs_styled_eq_ok_iff (h : Acyclic styling.sheet.styles) {runs : List Run}
    {runs' : List StyledRun} :
    runs.mapM (Run.styled styling (stack around)) = .ok runs' ↔
      List.Forall₂ (Run.StyledAs styling around) runs runs' :=
  mapM_eq_ok_iff fun _ _ => Run.styled_eq_ok_iff h

/-- A paragraph is styled exactly as its layers say. -/
theorem Paragraph.styled_eq_ok_iff (h : Acyclic styling.sheet.styles) {p : Paragraph}
    {p' : StyledParagraph} :
    p.styled styling (stack around) = .ok p' ↔ p.StyledAs styling around p' := by
  unfold Paragraph.styled Paragraph.StyledAs
  rw [Styling.declared_bind_eq_ok_iff h]
  simp only [← stack_append]
  constructor
  · rintro ⟨path, hway, hp⟩
    obtain ⟨runs, hruns, hp⟩ := bind_eq_ok_iff.mp hp
    obtain ⟨s, hs, hp⟩ := bind_eq_ok_iff.mp hp
    cases hp
    exact ⟨rfl, path, hway, Styling.settle_stack_eq_ok_iff.mp hs, (runs_styled_eq_ok_iff h).mp hruns⟩
  · rintro ⟨hid, path, hway, hs, hruns⟩
    have hsettle := Styling.settle_stack_eq_ok_iff.mpr hs
    have hruns := (runs_styled_eq_ok_iff h).mpr hruns
    refine ⟨path, hway, bind_eq_ok_iff.mpr ⟨_, hruns, bind_eq_ok_iff.mpr ⟨_, hsettle, ?_⟩⟩⟩
    rw [← hid]
    rfl

namespace TocRequest

/-- The only run of a title settles as the title itself does. -/
theorem titleParagraph_styled {around : StyleProperties} {text : String} :
    (titleParagraph styling text).styled styling around = do
      let own ← styling.declared (styling.sheet.registered? tocTitleStyleId) {}
      let style ← styling.settle (own.above around)
      return ⟨styling.sheet.registered? tocTitleStyleId, style, [⟨text, style⟩]⟩ := by
  refine bind_congr fun own => ?_
  have hrun : Run.styled styling (own.above around) { text } =
      styling.settle (own.above around) >>= fun style => .ok ⟨text, style⟩ := by
    unfold Run.styled
    rw [Styling.resolveRun_none_empty]
    rfl
  have hruns : [({ text } : Run)].mapM (Run.styled styling (own.above around)) =
      styling.settle (own.above around) >>= fun style => .ok [⟨text, style⟩] := by
    rw [List.mapM_cons, List.mapM_nil, hrun]
    cases styling.settle (own.above around) <;> rfl
  have hparagraph : (titleParagraph styling text).runs = [{ text }] := rfl
  rw [hparagraph, hruns]
  cases styling.settle (own.above around) <;> rfl

/-- The title of a table of contents is styled as its layers say. -/
theorem titleParagraph_styled_eq_ok_iff (h : Acyclic styling.sheet.styles) {text : String}
    {title : StyledParagraph} :
    (titleParagraph styling text).styled styling (stack around) = .ok title ↔
      TitleStyledAs styling around text title := by
  rw [titleParagraph_styled, Styling.declared_empty_bind_eq_ok_iff h]
  simp only [← stack_append]
  constructor
  · rintro ⟨path, hway, htitle⟩
    obtain ⟨style, hstyle, htitle⟩ := bind_eq_ok_iff.mp htitle
    cases htitle
    exact ⟨path, style, hway, Styling.settle_stack_eq_ok_iff.mp hstyle, rfl⟩
  · rintro ⟨path, style, hway, hstyle, rfl⟩
    have hsettle := Styling.settle_stack_eq_ok_iff.mpr hstyle
    exact ⟨path, hway, bind_eq_ok_iff.mpr ⟨style, hsettle, rfl⟩⟩

/-- An entry of a table of contents is styled as its layers say. -/
theorem entry_eq_ok_iff (h : Acyclic styling.sheet.styles) {e : OutlineEntry} {e' : TocEntry} :
    entry styling e = .ok e' ↔ EntryStyledAs styling e e' := by
  unfold entry EntryStyledAs
  rw [Styling.declared_empty_bind_eq_ok_iff h]
  constructor
  · rintro ⟨path, hway, he⟩
    obtain ⟨s, hs, he⟩ := bind_eq_ok_iff.mp he
    cases he
    exact ⟨rfl, rfl, path, hway, Styling.settle_stack_eq_ok_iff.mp hs⟩
  · rintro ⟨hlevel, htext, path, hway, hs⟩
    have hsettle := Styling.settle_stack_eq_ok_iff.mpr hs
    refine ⟨path, hway, bind_eq_ok_iff.mpr ⟨_, hsettle, ?_⟩⟩
    rw [← hlevel, ← htext]
    rfl

/-- A table of contents is styled as its layers say. -/
theorem styled_eq_ok_iff (h : Acyclic styling.sheet.styles) {toc : TocRequest} {toc' : StyledToc} :
    toc.styled styling outline (stack around) = .ok toc' ↔
      toc.StyledAs styling outline around toc' := by
  have htitle : ∀ title, (toc.title.mapM fun text =>
      (titleParagraph styling text).styled styling (stack around)) = .ok title ↔
        Option.Rel (TitleStyledAs styling around) toc.title title :=
    fun _ => option_mapM_eq_ok_iff fun _ _ => titleParagraph_styled_eq_ok_iff h
  have hentries : ∀ entries, (outline.filter fun e => toc.includes e.level).mapM (entry styling) =
      .ok entries ↔ List.Forall₂ (EntryStyledAs styling)
        (outline.filter fun e => toc.includes e.level) entries :=
    fun _ => mapM_eq_ok_iff fun _ _ => entry_eq_ok_iff h
  unfold styled
  rw [bind_eq_ok_iff]
  constructor
  · rintro ⟨title, ht, htoc⟩
    obtain ⟨entries, he, htoc⟩ := bind_eq_ok_iff.mp htoc
    cases htoc
    exact ⟨(htitle title).mp ht, (hentries entries).mp he, rfl⟩
  · rintro ⟨ht, he, hlink⟩
    refine ⟨_, (htitle _).mpr ht, bind_eq_ok_iff.mpr ⟨_, (hentries _).mpr he, ?_⟩⟩
    rw [← hlink]
    rfl

end TocRequest

mutual

/-- A block is styled in stacked surroundings exactly as its layers say. -/
theorem Block.styled_eq_ok_iff (h : Acyclic styling.sheet.styles) (b : Block) {b' : StyledBlock}
    {tables : List StyleProperties} :
    b.styled styling outline (stack tables) = .ok b' ↔ b.StyledAs styling outline tables b' := by
  cases b with
  | heading level p =>
    unfold Block.styled
    rw [bind_eq_ok_iff]
    constructor
    · rintro ⟨p', hp, hb⟩
      cases hb
      exact .heading ((Paragraph.styled_eq_ok_iff h).mp hp)
    · intro hb
      cases hb with
      | heading hp => exact ⟨_, (Paragraph.styled_eq_ok_iff h).mpr hp, rfl⟩
  | paragraph p =>
    unfold Block.styled
    rw [bind_eq_ok_iff]
    constructor
    · rintro ⟨p', hp, hb⟩
      cases hb
      exact .paragraph ((Paragraph.styled_eq_ok_iff h).mp hp)
    · intro hb
      cases hb with
      | paragraph hp => exact ⟨_, (Paragraph.styled_eq_ok_iff h).mpr hp, rfl⟩
  | run r =>
    unfold Block.styled
    rw [bind_eq_ok_iff]
    constructor
    · rintro ⟨r', hr, hb⟩
      cases hb
      exact .run ((Run.styled_eq_ok_iff h).mp hr)
    · intro hb
      cases hb with
      | run hr => exact ⟨_, (Run.styled_eq_ok_iff h).mpr hr, rfl⟩
  | table t =>
    obtain ⟨styleId, rows⟩ := t
    unfold Block.styled
    rw [Styling.declared_empty_bind_eq_ok_iff h]
    -- only here do the layers around the rest of the tree change
    simp only [← stack_append]
    constructor
    · rintro ⟨path, hway, hb⟩
      obtain ⟨rows', hrows, hb⟩ := bind_eq_ok_iff.mp hb
      cases hb
      exact .table hway ((styledRows_eq_ok_iff h rows).mp hrows)
    · intro hb
      cases hb with
      | table hway hrows =>
        have hrows := (styledRows_eq_ok_iff h rows).mpr hrows
        exact ⟨_, hway, bind_eq_ok_iff.mpr ⟨_, hrows, rfl⟩⟩
  | pageBreak =>
    constructor
    · intro hb
      cases hb
      exact .pageBreak
    · intro hb
      cases hb
      rfl
  | toc request =>
    unfold Block.styled
    rw [bind_eq_ok_iff]
    constructor
    · rintro ⟨contents, hc, hb⟩
      cases hb
      exact .toc ((TocRequest.styled_eq_ok_iff h).mp hc)
    · intro hb
      cases hb with
      | toc hc => exact ⟨_, (TocRequest.styled_eq_ok_iff h).mpr hc, rfl⟩
  termination_by structural b

/-- Blocks are styled as their layers say, those of the tables around them among these. -/
theorem styledBlocks_eq_ok_iff (h : Acyclic styling.sheet.styles) (blocks : List Block)
    {blocks' : List StyledBlock} {tables : List StyleProperties} :
    styledBlocks styling outline (stack tables) blocks = .ok blocks' ↔
      BlocksStyledAs styling outline tables blocks blocks' := by
  cases blocks with
  | nil =>
    constructor
    · intro hbs
      cases hbs
      exact .nil
    · intro hbs
      cases hbs
      rfl
  | cons b rest =>
    unfold styledBlocks
    rw [bind_eq_ok_iff]
    constructor
    · rintro ⟨b', hb, hbs⟩
      obtain ⟨rest', hrest, hbs⟩ := bind_eq_ok_iff.mp hbs
      cases hbs
      exact .cons ((Block.styled_eq_ok_iff h b).mp hb) ((styledBlocks_eq_ok_iff h rest).mp hrest)
    · intro hbs
      cases hbs with
      | cons hb hrest =>
        have hrest := (styledBlocks_eq_ok_iff h rest).mpr hrest
        exact ⟨_, (Block.styled_eq_ok_iff h b).mpr hb, bind_eq_ok_iff.mpr ⟨_, hrest, rfl⟩⟩
  termination_by structural blocks

/-- Cells are styled as the layers of their blocks say. -/
theorem styledCells_eq_ok_iff (h : Acyclic styling.sheet.styles)
    (cells : List (Cell Block ColorRef)) {cells' : List (Cell StyledBlock Color)}
    {tables : List StyleProperties} :
    styledCells styling outline (stack tables) cells = .ok cells' ↔
      CellsStyledAs styling outline tables cells cells' := by
  cases cells with
  | nil =>
    constructor
    · intro hcs
      cases hcs
      exact .nil
    · intro hcs
      cases hcs
      rfl
  | cons c rest =>
    obtain ⟨blocks, shading⟩ := c
    have hshading {shading' : Option Color} :
        shading.mapM (ColorRef.resolve styling.theme) = .ok shading' ↔
          Option.Rel (fun c c' => c.resolve styling.theme = .ok c') shading shading' :=
      option_mapM_eq_ok_iff fun _ _ => Iff.rfl
    unfold styledCells
    rw [bind_eq_ok_iff]
    constructor
    · rintro ⟨blocks', hblocks, hcs⟩
      obtain ⟨shading', hs, hcs⟩ := bind_eq_ok_iff.mp hcs
      obtain ⟨rest', hrest, hcs⟩ := bind_eq_ok_iff.mp hcs
      cases hcs
      exact .cons ((styledBlocks_eq_ok_iff h blocks).mp hblocks) (hshading.mp hs)
        ((styledCells_eq_ok_iff h rest).mp hrest)
    · intro hcs
      cases hcs with
      | cons hblocks hs hrest =>
        have hrest := (styledCells_eq_ok_iff h rest).mpr hrest
        exact ⟨_, (styledBlocks_eq_ok_iff h blocks).mpr hblocks, bind_eq_ok_iff.mpr
          ⟨_, hshading.mpr hs, bind_eq_ok_iff.mpr ⟨_, hrest, rfl⟩⟩⟩
  termination_by structural cells

/-- Rows are styled as the layers of their cells say. -/
theorem styledRows_eq_ok_iff (h : Acyclic styling.sheet.styles) (rows : List (Row Block ColorRef))
    {rows' : List (Row StyledBlock Color)} {tables : List StyleProperties} :
    styledRows styling outline (stack tables) rows = .ok rows' ↔
      RowsStyledAs styling outline tables rows rows' := by
  cases rows with
  | nil =>
    constructor
    · intro hrs
      cases hrs
      exact .nil
    · intro hrs
      cases hrs
      rfl
  | cons r rest =>
    obtain ⟨cells, header⟩ := r
    unfold styledRows
    rw [bind_eq_ok_iff]
    constructor
    · rintro ⟨cells', hcells, hrs⟩
      obtain ⟨rest', hrest, hrs⟩ := bind_eq_ok_iff.mp hrs
      cases hrs
      exact .cons ((styledCells_eq_ok_iff h cells).mp hcells) ((styledRows_eq_ok_iff h rest).mp hrest)
    · intro hrs
      cases hrs with
      | cons hcells hrest =>
        have hrest := (styledRows_eq_ok_iff h rest).mpr hrest
        exact ⟨_, (styledCells_eq_ok_iff h cells).mpr hcells, bind_eq_ok_iff.mpr ⟨_, hrest, rfl⟩⟩
  termination_by structural rows

end

/-- A section is styled as the layers of its blocks say. -/
theorem Section.styled_eq_ok_iff (h : Acyclic styling.sheet.styles) {s : Section}
    {s' : StyledSection} : s.styled styling outline = .ok s' ↔ s.StyledAs styling outline s' := by
  unfold Section.styled
  rw [← stack_nil, bind_eq_ok_iff]
  constructor
  · rintro ⟨blocks, hblocks, hs⟩
    cases hs
    exact ⟨rfl, (styledBlocks_eq_ok_iff h s.blocks).mp hblocks⟩
  · rintro ⟨hpage, hblocks⟩
    rw [← hpage]
    exact ⟨_, (styledBlocks_eq_ok_iff h s.blocks).mpr hblocks, rfl⟩

/-- A document is styled as the layers of its sections say. -/
theorem Document.styled_eq_ok_iff (h : Acyclic styling.sheet.styles) {doc : Document}
    {out : StyledDocument} : doc.styled styling = .ok out ↔ doc.StyledAs styling out := by
  have hsections {sections : List StyledSection} :
      doc.sections.mapM (Section.styled styling doc.outline) = .ok sections ↔
        List.Forall₂ (Section.StyledAs styling doc.outline) doc.sections sections :=
    mapM_eq_ok_iff fun _ _ => Section.styled_eq_ok_iff h
  unfold Document.styled
  rw [bind_eq_ok_iff]
  constructor
  · rintro ⟨sections, hs, hout⟩
    cases hout
    exact ⟨rfl, rfl, rfl, hsections.mp hs⟩
  · rintro ⟨htitle, htheme, hstyles, hs⟩
    rw [← htitle, ← htheme, ← hstyles]
    exact ⟨_, hsections.mpr hs, rfl⟩

end

namespace Stylesheet

/-- With a stylesheet that is bound to a theme, styling succeeds exactly with the document in which
every element, however many tables it stands in, has the nearest values of its own layers, those of
the tables around it from the innermost to the outermost, and the defaults. -/
theorem Reachable.styled_iff_styledAs {sheet : Stylesheet} {theme : Theme} {styling : Styling}
    (h : sheet.Reachable) (hb : sheet.bind theme = .ok styling) (doc : Document)
    (out : StyledDocument) : doc.styled styling = .ok out ↔ doc.StyledAs ⟨theme, sheet⟩ out := by
  have hacyclic := h.coherent.acyclic
  obtain ⟨rfl, _⟩ := (bind_eq_ok_iff_fits hacyclic).mp hb
  exact Document.styled_eq_ok_iff hacyclic

/-- A table in another, with the quotation style for the outer one, below a table of contents. -/
def quotedTables : Document :=
  let inner : Table Block ColorRef :=
    { rows := [{ cells := [{ blocks := [.paragraph (.ofText "Wide"), .run { text := "apart" }] }] }] }
  let outer : Table Block ColorRef :=
    { styleId := some "Quote", rows := [{ cells := [{ blocks := [.table inner] }] }] }
  { title := "Letter"
    sections := [{
      page := .a4
      blocks := [.toc { title := some "Contents" }, .heading 0 (.ofText "Far"), .table outer] }] }

/-- The tables of a letter are styled as their layers say. -/
theorem Reachable.styled_iff_styledAs_quotedTables :
    letter.Reachable ∧ ∃ styling out, letter.bind plainTheme = .ok styling ∧
      quotedTables.styled styling = .ok out ∧ quotedTables.StyledAs ⟨plainTheme, letter⟩ out := by
  obtain ⟨styling, hb⟩ : ∃ styling, letter.bind plainTheme = .ok styling :=
    exists_eq_ok_of_isOk (by decide +kernel)
  obtain ⟨rfl, _⟩ := (bind_eq_ok_iff_fits reachable_letter.coherent.acyclic).mp hb
  obtain ⟨out, hout⟩ : ∃ out, quotedTables.styled ⟨plainTheme, letter⟩ = .ok out :=
    exists_eq_ok_of_isOk (by decide +kernel)
  have hlayers := (reachable_letter.styled_iff_styledAs hb quotedTables out).mp hout
  exact ⟨reachable_letter, _, out, hb, hout, hlayers⟩

end Stylesheet

end Folio
