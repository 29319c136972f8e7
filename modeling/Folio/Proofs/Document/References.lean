import Folio.Proofs.Document.Layers
import Folio.Proofs.Style.References

/-!
# References of a document

A document names styles at its headings, paragraphs, runs and tables, roles in their overrides, and
colour roles as shadings, at any depth of tables in cells. Styling never checks these references as
such, it only resolves the properties in effect; still it succeeds exactly when all of them are
known, since no layer around an element hides an unknown role from every element that has it.
-/

namespace Folio

open StyleProperties

/-- The style of a run and the roles of its overrides. -/
def Run.references (r : Run) : List Reference := styleReferences r.styleId ++ r.overrides.references

/-- The style of a paragraph, the roles of its overrides and what its runs name. -/
def Paragraph.references (p : Paragraph) : List Reference :=
  styleReferences p.styleId ++ p.overrides.references ++ p.runs.flatMap Run.references

mutual

/-- What a block names; a table of contents names nothing. -/
def Block.references : Block → List Reference
  | .heading _ p => p.references
  | .paragraph p => p.references
  | .run r => r.references
  | .table ⟨styleId, rows⟩ => styleReferences styleId ++ rowsReferences rows
  | .pageBreak => []
  | .toc _ => []

/-- What the blocks of a list name. -/
def blocksReferences : List Block → List Reference
  | [] => []
  | b :: rest => b.references ++ blocksReferences rest

/-- What the cells of a row name, the roles of their shadings among it. -/
def cellsReferences : List (Cell Block ColorRef) → List Reference
  | [] => []
  | ⟨blocks, shading⟩ :: rest =>
    blocksReferences blocks ++ shading.toList.flatMap ColorRef.references ++ cellsReferences rest

/-- What the rows of a table name. -/
def rowsReferences : List (Row Block ColorRef) → List Reference
  | [] => []
  | ⟨cells, _⟩ :: rest => cellsReferences cells ++ rowsReferences rest

end

/-- What a document names. -/
def Document.references (doc : Document) : List Reference :=
  doc.sections.flatMap fun s => blocksReferences s.blocks

variable {styling : Styling} {outline : List OutlineEntry} {tables : List StyleProperties}
  {e : BuildError}

/-- A run that could be styled refers to nothing unknown. -/
theorem Run.StyledAs.references_known {r : Run} {r' : StyledRun}
    (h : r.StyledAs styling tables r') :
    ∀ ref ∈ r.references, ref.known styling = true := by
  obtain ⟨_, path, hway, hnearest⟩ := h
  unfold Run.references
  rw [List.forall_mem_append]
  exact ⟨styleReferences_known hway, hnearest.references_known⟩

/-- What is related element by element names what its elements name. -/
theorem forall₂_references_known {α β : Type} {R : α → β → Prop} {references : α → List Reference}
    (hR : ∀ a b, R a b → ∀ ref ∈ references a, ref.known styling = true) {xs : List α} {ys : List β}
    (h : List.Forall₂ R xs ys) : ∀ ref ∈ xs.flatMap references, ref.known styling = true := by
  induction h with
  | nil => exact nofun
  | cons hxy _ ih =>
    rw [List.flatMap_cons, List.forall_mem_append]
    exact ⟨hR _ _ hxy, ih⟩

/-- A paragraph that could be styled refers to nothing unknown. -/
theorem Paragraph.StyledAs.references_known {p : Paragraph} {p' : StyledParagraph}
    (h : p.StyledAs styling tables p') : ∀ ref ∈ p.references, ref.known styling = true := by
  obtain ⟨_, path, hway, hnearest, hruns⟩ := h
  unfold Paragraph.references
  rw [List.forall_mem_append, List.forall_mem_append]
  have hruns := forall₂_references_known (fun _ _ hr => Run.StyledAs.references_known hr) hruns
  exact ⟨⟨styleReferences_known hway, hnearest.references_known⟩, hruns⟩

/-- A shading that could be resolved refers to nothing unknown. -/
theorem shading_references_known {shading : Option ColorRef} {shading' : Option Color}
    (h : Option.Rel (fun c c' => ColorRef.resolve styling.theme c = .ok c') shading shading') :
    ∀ ref ∈ shading.toList.flatMap ColorRef.references, ref.known styling = true := by
  cases h with
  | none => exact nofun
  | some hc =>
    rw [Option.toList_some, List.flatMap_singleton]
    exact ColorRef.references_known_of_resolve_eq_ok hc

mutual

/-- A block that could be styled refers to nothing unknown. -/
theorem Block.StyledAs.references_known {tables : List StyleProperties} {b : Block} 
    {b' : StyledBlock} (h : b.StyledAs styling outline tables b') :
    ∀ ref ∈ b.references, ref.known styling = true := by
  unfold Block.references
  cases h with
  | heading hp => exact hp.references_known
  | paragraph hp => exact hp.references_known
  | run hr => exact hr.references_known
  | table hway hrows =>
    rw [List.forall_mem_append]
    exact ⟨styleReferences_known hway, hrows.references_known⟩
  | pageBreak => exact nofun
  | toc _ => exact nofun

/-- Blocks that could be styled refer to nothing unknown. -/
theorem BlocksStyledAs.references_known {tables : List StyleProperties} {blocks : List Block}
    {blocks' : List StyledBlock} (h : BlocksStyledAs styling outline tables blocks blocks') :
    ∀ ref ∈ blocksReferences blocks, ref.known styling = true := by
  unfold blocksReferences
  cases h with
  | nil => exact nofun
  | cons hb hrest =>
    rw [List.forall_mem_append]
    exact ⟨hb.references_known, hrest.references_known⟩

/-- Cells that could be styled refer to nothing unknown. -/
theorem CellsStyledAs.references_known {tables : List StyleProperties}
    {cells : List (Cell Block ColorRef)} {cells' : List (Cell StyledBlock Color)}
    (h : CellsStyledAs styling outline tables cells cells') :
    ∀ ref ∈ cellsReferences cells, ref.known styling = true := by
  unfold cellsReferences
  cases h with
  | nil => exact nofun
  | cons hblocks hshading hrest =>
    rw [List.forall_mem_append, List.forall_mem_append]
    exact ⟨⟨hblocks.references_known, shading_references_known hshading⟩, hrest.references_known⟩

/-- Rows that could be styled refer to nothing unknown. -/
theorem RowsStyledAs.references_known {tables : List StyleProperties}
    {rows : List (Row Block ColorRef)} {rows' : List (Row StyledBlock Color)}
    (h : RowsStyledAs styling outline tables rows rows') :
    ∀ ref ∈ rowsReferences rows, ref.known styling = true := by
  unfold rowsReferences
  cases h with
  | nil => exact nofun
  | cons hcells hrest =>
    rw [List.forall_mem_append]
    exact ⟨hcells.references_known, hrest.references_known⟩

end

section

variable (h : Acyclic styling.sheet.styles) (hfits : styling.sheet.Fits styling.theme)

include h hfits

/-- A run that cannot be styled reports a reference of its own or of a layer around it. -/
theorem Run.reports_of_styled_eq_error {r : Run} {around : List StyleProperties}
    (he : r.styled styling (stack around) = .error e) :
    Reports styling (r.references ++ around.flatMap StyleProperties.references) e := by
  unfold Run.references
  have he := bind_pure_eq_error_iff.mp he
  unfold Styling.resolveRun at he
  rcases bind_eq_error_iff.mp he with hdeclared | ⟨own, hown, hsettle⟩
  · refine (Styling.reports_of_declared_eq_error h hfits hdeclared).of_subset fun ref href => ?_
    exact .inl (List.mem_append_left _ (List.mem_append_left _ href))
  · obtain ⟨path, hway, rfl⟩ := (Styling.declared_eq_ok_iff h).mp hown
    rw [← stack_append] at hsettle
    refine (Styling.reports_of_settle_chain_eq_error hfits hway hsettle).of_subset
      fun ref href => ?_
    rw [List.append_assoc]
    exact .inl (List.mem_append_right _ href)

variable (htables : ∀ p ∈ tables, styling.sheet.HasLayer p)

include htables

/-- A block of its own lies only in layers of the stylesheet. -/
theorem Run.reports_of_styled_alone_eq_error {r : Run}
    (he : r.styled styling (stack tables) = .error e) : Reports styling r.references e := by
  refine (Run.reports_of_styled_eq_error h hfits he).of_subset fun ref href => ?_
  rcases List.mem_append.mp href with href | href
  · exact .inl href
  · exact .inr (layers_references_known hfits htables ref href)

/-- A role that a paragraph names is reported at the first run in which nothing hides it, or at the
paragraph itself. -/
theorem Paragraph.reports_of_styled_eq_error {p : Paragraph}
    (he : p.styled styling (stack tables) = .error e) : Reports styling p.references e := by
  unfold Paragraph.references
  unfold Paragraph.styled at he
  rcases bind_eq_error_iff.mp he with hdeclared | ⟨own, hown, he⟩
  · refine (Styling.reports_of_declared_eq_error h hfits hdeclared).of_subset fun ref href => ?_
    exact .inl (List.mem_append_left _ (List.mem_append_left _ href))
  obtain ⟨path, hway, rfl⟩ := (Styling.declared_eq_ok_iff h).mp hown
  rw [← stack_append] at he
  have hpath := layers_references_known hfits fun p => Stylesheet.hasLayer_of_ascends hway
  have htables := layers_references_known hfits htables
  rcases bind_eq_error_iff.mp he with hruns | ⟨runs, _, hsettle⟩
  · obtain ⟨r, hr, hrun⟩ := exists_of_mapM_eq_error hruns
    refine (Run.reports_of_styled_eq_error h hfits hrun).of_subset fun ref href => ?_
    rw [List.flatMap_append, List.flatMap_cons, List.append_assoc] at href
    simp only [List.mem_append] at href ⊢
    rcases href with href | href | href | href
    · exact .inl (.inr (List.mem_flatMap.mpr ⟨r, hr, href⟩))
    · exact .inl (.inl (.inr href))
    · exact .inr (hpath ref href)
    · exact .inr (htables ref href)
  · have hsettle := bind_pure_eq_error_iff.mp hsettle
    refine (Styling.reports_of_settle_chain_eq_error hfits hway hsettle).of_subset
      fun ref href => ?_
    rcases List.mem_append.mp href with href | href
    · exact .inl (List.mem_append_left _ (List.mem_append_right _ href))
    · exact .inr (htables ref href)

/-- A table of contents is styled whatever styles for it are registered. -/
theorem TocRequest.exists_styled_eq_ok (toc : TocRequest) :
    ∃ contents, toc.styled styling outline (stack tables) = .ok contents := by
  cases hc : toc.styled styling outline (stack tables) with
  | ok contents => exact ⟨contents, rfl⟩
  | error e =>
    exfalso
    unfold TocRequest.styled at hc
    rcases bind_eq_error_iff.mp hc with htitle | ⟨title, _, hc⟩
    · obtain ⟨text, _, htitle⟩ := exists_of_option_mapM_eq_error htitle
      refine not_reports_of_known ?_ (Paragraph.reports_of_styled_eq_error h hfits htables htitle)
      intro ref href
      -- the run of a title declares nothing
      have hown : (titleParagraph styling text).references =
          styleReferences (styling.sheet.registered? tocTitleStyleId) ++ [] ++ [] := rfl
      rw [hown, List.append_nil, List.append_nil] at href
      exact registered?_references_known ref href
    · obtain ⟨entry, _, hentry⟩ := exists_of_mapM_eq_error (bind_pure_eq_error_iff.mp hc)
      unfold TocRequest.entry at hentry
      rcases bind_eq_error_iff.mp hentry with hdeclared | ⟨own, hown, hsettle⟩
      · exact not_reports_of_known registered?_references_known
          (Styling.reports_of_declared_eq_error h hfits hdeclared)
      · obtain ⟨path, hway, rfl⟩ := (Styling.declared_eq_ok_iff h).mp hown
        have hsettle := bind_pure_eq_error_iff.mp hsettle
        rw [← List.append_nil (_ :: _)] at hsettle
        exact not_reports_of_known (List.forall_mem_nil _)
          (Styling.reports_of_settle_chain_eq_error hfits hway hsettle)

end

mutual

/-- A block that is refused names what is reported. -/
theorem Block.reports_of_styled_eq_error (h : Acyclic styling.sheet.styles)
    (hfits : styling.sheet.Fits styling.theme) (b : Block) {tables : List StyleProperties}
    (htables : ∀ p ∈ tables, styling.sheet.HasLayer p)
    (he : b.styled styling outline (stack tables) = .error e) :
    Reports styling b.references e := by
  unfold Block.references
  unfold Block.styled at he
  cases b with
  | heading level p =>
    exact Paragraph.reports_of_styled_eq_error h hfits htables (bind_pure_eq_error_iff.mp he)
  | paragraph p =>
    exact Paragraph.reports_of_styled_eq_error h hfits htables (bind_pure_eq_error_iff.mp he)
  | run r =>
    exact Run.reports_of_styled_alone_eq_error h hfits htables (bind_pure_eq_error_iff.mp he)
  | table t =>
    obtain ⟨styleId, rows⟩ := t
    rcases bind_eq_error_iff.mp he with hdeclared | ⟨own, hown, he⟩
    · refine (Styling.reports_of_declared_eq_error h hfits hdeclared).of_subset fun ref href => ?_
      exact .inl (List.mem_append_left _ href)
    · obtain ⟨path, hway, rfl⟩ := (Styling.declared_eq_ok_iff h).mp hown
      rw [stack_cons, empty_above, ← stack_append] at he
      -- the chain of the table's style consists of layers of the stylesheet as well
      have hinner : ∀ p ∈ path.map (·.properties) ++ tables, styling.sheet.HasLayer p :=
        List.forall_mem_append.mpr ⟨fun p => Stylesheet.hasLayer_of_ascends hway, htables⟩
      have hrows := rows_reports_of_styled_eq_error h hfits rows hinner
        (bind_pure_eq_error_iff.mp he)
      exact hrows.of_subset fun ref href => .inl (List.mem_append_right _ href)
  | pageBreak => cases he
  | toc request =>
    obtain ⟨contents, hcontents⟩ := request.exists_styled_eq_ok h hfits htables
    rw [bind_pure_eq_error_iff.mp he] at hcontents
    cases hcontents
  termination_by structural b

/-- Blocks that cannot be styled report a reference of theirs, since the layers around them are
known. -/
theorem blocks_reports_of_styled_eq_error (h : Acyclic styling.sheet.styles)
    (hfits : styling.sheet.Fits styling.theme) (blocks : List Block)
    {tables : List StyleProperties}
    (htables : ∀ p ∈ tables, styling.sheet.HasLayer p)
    (he : styledBlocks styling outline (stack tables) blocks = .error e) :
    Reports styling (blocksReferences blocks) e := by
  cases blocks with
  | nil => cases he
  | cons b rest =>
    unfold blocksReferences
    unfold styledBlocks at he
    rcases bind_eq_error_iff.mp he with hb | ⟨_, _, he⟩
    · have hb := b.reports_of_styled_eq_error h hfits htables hb
      exact hb.of_subset fun ref href => .inl (List.mem_append_left _ href)
    · have hrest := blocks_reports_of_styled_eq_error h hfits rest htables
        (bind_pure_eq_error_iff.mp he)
      exact hrest.of_subset fun ref href => .inl (List.mem_append_right _ href)
  termination_by structural blocks

/-- Cells that cannot be styled report a reference of theirs. -/
theorem cells_reports_of_styled_eq_error (h : Acyclic styling.sheet.styles)
    (hfits : styling.sheet.Fits styling.theme) (cells : List (Cell Block ColorRef))
    {tables : List StyleProperties} (htables : ∀ p ∈ tables, styling.sheet.HasLayer p)
    (he : styledCells styling outline (stack tables) cells = .error e) :
    Reports styling (cellsReferences cells) e := by
  cases cells with
  | nil => cases he
  | cons c rest =>
    obtain ⟨blocks, shading⟩ := c
    unfold cellsReferences
    unfold styledCells at he
    rcases bind_eq_error_iff.mp he with hblocks | ⟨_, _, he⟩
    · have hblocks := blocks_reports_of_styled_eq_error h hfits blocks htables hblocks
      exact hblocks.of_subset fun ref href =>
        .inl (List.mem_append_left _ (List.mem_append_left _ href))
    rcases bind_eq_error_iff.mp he with hshading | ⟨_, _, he⟩
    · obtain ⟨c, rfl, hc⟩ := exists_of_option_mapM_eq_error hshading
      refine (ColorRef.reports_of_resolve_eq_error hc).of_subset fun ref href => ?_
      rw [Option.toList_some, List.flatMap_singleton]
      exact .inl (List.mem_append_left _ (List.mem_append_right _ href))
    · have hrest := cells_reports_of_styled_eq_error h hfits rest htables
        (bind_pure_eq_error_iff.mp he)
      exact hrest.of_subset fun ref href => .inl (List.mem_append_right _ href)
  termination_by structural cells

/-- Rows that cannot be styled report a reference of theirs. -/
theorem rows_reports_of_styled_eq_error (h : Acyclic styling.sheet.styles)
    (hfits : styling.sheet.Fits styling.theme) (rows : List (Row Block ColorRef))
    {tables : List StyleProperties} (htables : ∀ p ∈ tables, styling.sheet.HasLayer p)
    (he : styledRows styling outline (stack tables) rows = .error e) :
    Reports styling (rowsReferences rows) e := by
  cases rows with
  | nil => cases he
  | cons r rest =>
    obtain ⟨cells, header⟩ := r
    unfold rowsReferences
    unfold styledRows at he
    rcases bind_eq_error_iff.mp he with hcells | ⟨_, _, he⟩
    · have hcells := cells_reports_of_styled_eq_error h hfits cells htables hcells
      exact hcells.of_subset fun ref href => .inl (List.mem_append_left _ href)
    · have hrest := rows_reports_of_styled_eq_error h hfits rest htables
        (bind_pure_eq_error_iff.mp he)
      exact hrest.of_subset fun ref href => .inl (List.mem_append_right _ href)
  termination_by structural rows

end

/-- A document that could be styled refers to nothing unknown. -/
theorem Document.StyledAs.references_known {doc : Document} {out : StyledDocument}
    (h : doc.StyledAs styling out) : ∀ ref ∈ doc.references, ref.known styling = true :=
  forall₂_references_known (fun _ _ hs => hs.blocks.references_known) h.sections

/-- A document that cannot be styled reports a reference of its own. -/
theorem Document.reports_of_styled_eq_error (h : Acyclic styling.sheet.styles)
    (hfits : styling.sheet.Fits styling.theme) {doc : Document}
    (he : doc.styled styling = .error e) : Reports styling doc.references e := by
  obtain ⟨s, hs, he⟩ := exists_of_mapM_eq_error (bind_pure_eq_error_iff.mp he)
  have hblocks := bind_pure_eq_error_iff.mp he
  rw [← stack_nil] at hblocks
  have hreports := blocks_reports_of_styled_eq_error h hfits s.blocks
    (List.forall_mem_nil _) hblocks
  exact hreports.of_subset fun ref href => .inl (List.mem_flatMap.mpr ⟨s, hs, href⟩)

namespace Stylesheet

/-- With a stylesheet that is bound to a theme, styling a document succeeds exactly when every style
that the document names is registered and every role that it names is bound in its kind, and else
reports a style or a role for which this fails. In layers of the stylesheet a table of contents is
always styled, whatever is registered. -/
theorem Reachable.styled_iff_references_known {sheet : Stylesheet} {theme : Theme}
    {styling : Styling} (h : sheet.Reachable) (hb : sheet.bind theme = .ok styling) :
    (∀ doc : Document, (∃ out, doc.styled styling = .ok out) ↔
      ∀ ref ∈ doc.references, ref.known ⟨theme, sheet⟩ = true) ∧
    (∀ (doc : Document) (e : BuildError), doc.styled styling = .error e →
      ∃ ref ∈ doc.references, ref.known ⟨theme, sheet⟩ = false ∧ e = ref.error) ∧
    ∀ (toc : TocRequest) (outline : List OutlineEntry) (tables : List StyleProperties),
      (∀ p ∈ tables, sheet.HasLayer p) →
      ∃ contents, toc.styled styling outline (stack tables) = .ok contents := by
  have hacyclic := h.coherent.acyclic
  obtain ⟨rfl, hfits⟩ := (bind_eq_ok_iff_fits hacyclic).mp hb
  have hreports (doc : Document) (e : BuildError)
      (he : doc.styled ⟨theme, sheet⟩ = .error e) : Reports ⟨theme, sheet⟩ doc.references e :=
    Document.reports_of_styled_eq_error hacyclic hfits he
  refine ⟨fun doc => ⟨fun ⟨out, hout⟩ => ?_, fun hknown => ?_⟩, hreports,
    fun toc outline tables htables => toc.exists_styled_eq_ok hacyclic hfits htables⟩
  · exact ((Document.styled_eq_ok_iff hacyclic).mp hout).references_known
  · cases hs : doc.styled ⟨theme, sheet⟩ with
    | ok out => exact ⟨out, rfl⟩
    | error e => exact absurd (hreports doc e hs) (not_reports_of_known hknown)

/-- A paragraph in a table, whose only run has its own font and so hides the font role that the
paragraph names. -/
def hiddenRole : Document :=
  let run : Run := { text := "Face", overrides := StyleProperties.font {} (.face "Sans") }
  let paragraph : Paragraph := { overrides := fontRole {} "mono", runs := [run] }
  { title := "Letter"
    sections := [{
      page := .a4
      blocks := [
        .toc {}, .table { rows := [{ cells := [{ blocks := [.paragraph paragraph] }] }] }] }] }

/-- A role that no run shows is still reported. -/
theorem Reachable.styled_iff_references_known_hiddenRole :
    letter.Reachable ∧ ∃ styling, letter.bind plainTheme = .ok styling ∧
      ¬∃ out, hiddenRole.styled styling = .ok out := by
  obtain ⟨styling, hb⟩ : ∃ styling, letter.bind plainTheme = .ok styling :=
    exists_eq_ok_of_isOk (by decide +kernel)
  refine ⟨reachable_letter, styling, hb, fun hstyled => ?_⟩
  obtain ⟨hiff, _, _⟩ := reachable_letter.styled_iff_references_known hb
  have hknown := (hiff hiddenRole).mp hstyled (.role .font "mono") (List.mem_singleton_self _)
  exact absurd hknown (by decide +kernel)

end Stylesheet

end Folio
