import Folio.Proofs.Document.RoundTrip

/-!
# Reading written styled documents

A styled document is read from its text as it was, the styles that travel with it included. Its
blocks are written as those of a document are, with the properties in effect in place of overrides,
so the argument is the same: what stands in a cell is shallower than the table around it.
-/

namespace Folio

open Json

/-- The scalars of a styled run. -/
def StyledRun.scalars (r : StyledRun) : List Scalar := r.style.scalars

/-- The scalars of a styled paragraph. -/
def StyledParagraph.scalars (p : StyledParagraph) : List Scalar :=
  p.style.scalars ++ p.runs.flatMap StyledRun.scalars

/-- The scalars of a styled table of contents. -/
def StyledToc.scalars (toc : StyledToc) : List Scalar :=
  toc.title.toList.flatMap StyledParagraph.scalars ++ toc.entries.flatMap fun e => e.style.scalars

mutual

/-- The scalars of a styled block. -/
def StyledBlock.scalars : StyledBlock → List Scalar
  | .heading _ p => p.scalars
  | .paragraph p => p.scalars
  | .run r => r.scalars
  | .table rows => styledRowsScalars rows
  | .pageBreak => []
  | .toc contents => contents.scalars

/-- The scalars of the styled blocks of a list. -/
def styledBlocksScalars : List StyledBlock → List Scalar
  | [] => []
  | b :: rest => b.scalars ++ styledBlocksScalars rest

/-- The scalars of the cells of a row, their shadings among them. -/
def styledCellsScalars : List (Cell StyledBlock Color) → List Scalar
  | [] => []
  | ⟨blocks, shading⟩ :: rest =>
    styledBlocksScalars blocks ++ shading.toList.map .color ++ styledCellsScalars rest

/-- The scalars of the rows of a table. -/
def styledRowsScalars : List (Row StyledBlock Color) → List Scalar
  | [] => []
  | ⟨cells, _⟩ :: rest => styledCellsScalars cells ++ styledRowsScalars rest

end

/-- All scalars of a styled document. -/
def StyledDocument.scalars (doc : StyledDocument) : List Scalar :=
  doc.styles.flatMap StyleDefinition.scalars ++
    doc.sections.flatMap fun s => styledBlocksScalars s.blocks

namespace StyledRun

variable {r : StyledRun} (h : ∀ x ∈ r.scalars, x.Portable)

include h

/-- What is written for a styled run can be read. -/
theorem slots_legible : ∀ slot ∈ r.slots, ∀ v ∈ slot, v.Legible 2 := by
  simp only [slots, List.forall_mem_cons]
  exact ⟨(Faithful.text r.text 2).forall_legible,
    (EffectiveStyle.faithful h .strict).forall_legible, List.forall_mem_nil _⟩

/-- A styled run is read back from what is written for it. -/
theorem faithful (mode : Strictness) : Faithful 3 (ofJson? mode) r.toJson r := by
  refine Value.faithful_record (by decide) rfl (slots_legible h) ?_
  simp only [slots, (Faithful.text r.text 2).required.reads,
    (EffectiveStyle.faithful h mode).required.reads, Option.bind_eq_bind, Option.bind_some,
    Option.pure_def]

end StyledRun

namespace StyledParagraph

variable {p : StyledParagraph} (h : ∀ x ∈ p.scalars, x.Portable)

include h

/-- The parts of a styled paragraph are read back each from its own field. -/
theorem parts_faithful (mode : Strictness) :
    FaithfulField 2 (Value.required (EffectiveStyle.ofJson? mode)) (some p.style.toJson) p.style ∧
      FaithfulField 4 (Value.required (Value.list? (StyledRun.ofJson? mode)))
        (some (.ofList StyledRun.toJson p.runs)) p.runs := by
  rw [scalars, List.forall_mem_append, List.forall_mem_flatMap] at h
  obtain ⟨hstyle, hruns⟩ := h
  have hruns := Faithful.list fun r hr => StyledRun.faithful (hruns r hr) mode
  exact ⟨(EffectiveStyle.faithful hstyle mode).required, hruns.required⟩

/-- What is written for a styled paragraph can be read. -/
theorem slots_legible : ∀ slot ∈ p.slots, ∀ v ∈ slot, v.Legible 4 := by
  obtain ⟨hstyle, hruns⟩ := parts_faithful h .strict
  simp only [slots, List.forall_mem_cons]
  exact ⟨(optional_text p.styleId 4).legible, (hstyle.mono (by decide)).legible, hruns.legible,
    List.forall_mem_nil _⟩

/-- A styled paragraph is read back from what is written for it. -/
theorem faithful (mode : Strictness) : Faithful 5 (ofJson? mode) p.toJson p := by
  obtain ⟨hstyle, hruns⟩ := parts_faithful h mode
  refine Value.faithful_record (by decide) rfl (slots_legible h) ?_
  simp only [slots, (optional_text p.styleId 4).reads, hstyle.reads, hruns.reads,
    Option.bind_eq_bind, Option.bind_some, Option.pure_def]

end StyledParagraph

/-- An entry of a table of contents is read back from what is written for it. -/
theorem TocEntry.faithful {e : TocEntry} (h : ∀ x ∈ e.style.scalars, x.Portable)
    (mode : Strictness) : Faithful 3 (ofJson? mode) e.toJson e := by
  have hlevel := (Faithful.uint8 e.level 2).required
  have htext := (Faithful.text e.text 2).required
  have hstyle := (EffectiveStyle.faithful h mode).required
  refine Value.faithful_record (by decide) rfl ?_ ?_
  · simp only [List.forall_mem_cons]
    exact ⟨hlevel.legible, htext.legible, hstyle.legible, List.forall_mem_nil _⟩
  · simp only [hlevel.reads, htext.reads, hstyle.reads, Option.bind_eq_bind, Option.bind_some,
      Option.pure_def]

namespace StyledToc

variable {toc : StyledToc} (h : ∀ x ∈ toc.scalars, x.Portable)

include h

/-- The parts of a styled table of contents are read back each from its own field. -/
theorem parts_faithful (mode : Strictness) :
    FaithfulField 5 (Value.optional (StyledParagraph.ofJson? mode))
        (toc.title.map StyledParagraph.toJson) toc.title ∧
      FaithfulField 4 (Value.required (Value.list? (TocEntry.ofJson? mode)))
        (some (.ofList TocEntry.toJson toc.entries)) toc.entries := by
  simp only [scalars, List.forall_mem_append, List.forall_mem_flatMap, Option.mem_toList] at h
  obtain ⟨htitle, hentries⟩ := h
  have hnull (p : StyledParagraph) : p.toJson ≠ .null := nofun
  constructor
  · exact .optional (fun p hp => StyledParagraph.faithful (htitle p hp) mode) fun p _ => hnull p
  · exact (Faithful.list fun e he => TocEntry.faithful (hentries e he) mode).required

/-- What is written for a styled table of contents can be read. -/
theorem slots_legible : ∀ slot ∈ toc.slots, ∀ v ∈ slot, v.Legible 5 := by
  obtain ⟨htitle, hentries⟩ := parts_faithful h .strict
  simp only [slots, List.forall_mem_cons]
  exact ⟨htitle.legible, (hentries.mono (by decide)).legible,
    (Faithful.bool toc.hyperlink 5).forall_legible, List.forall_mem_nil _⟩

/-- A styled table of contents is read back from what is written for it. -/
theorem faithful (mode : Strictness) : Faithful 6 (ofJson? mode) toc.toJson toc := by
  obtain ⟨htitle, hentries⟩ := parts_faithful h mode
  refine Value.faithful_record (by decide) rfl (slots_legible h) ?_
  simp only [slots, htitle.reads, hentries.reads, (Faithful.bool toc.hyperlink 5).required.reads,
    Option.bind_eq_bind, Option.bind_some, Option.pure_def]

end StyledToc

namespace StyledBlock

/-- Styled blocks are written one by one. -/
theorem writtenBlocks_eq (blocks : List StyledBlock) :
    writtenBlocks blocks = blocks.map toJson := by
  induction blocks with
  | nil => rfl
  | cons b rest ih => rw [writtenBlocks, ih, List.map_cons]

/-- Styled cells are written one by one. -/
theorem writtenCells_eq (cells : List (Cell StyledBlock Color)) :
    writtenCells cells = cells.map cellToJson := by
  induction cells with
  | nil => rfl
  | cons c rest ih =>
    rw [writtenCells, ih]
    rfl

/-- Styled rows are written one by one. -/
theorem writtenRows_eq (rows : List (Row StyledBlock Color)) :
    writtenRows rows = rows.map rowToJson := by
  induction rows with
  | nil => rfl
  | cons r rest ih =>
    rw [writtenRows, ih]
    rfl

/-- A block is written as a container. -/
theorem depth_pos (b : StyledBlock) : 0 < b.toJson.depth := by
  unfold toJson
  cases b <;> exact Nat.succ_pos _

end StyledBlock

mutual

/-- A styled block is read by every reader that goes as deep as the block. -/
theorem StyledBlock.faithful (b : StyledBlock) (h : ∀ x ∈ b.scalars, x.Portable) {fuel : Nat}
    (hfuel : b.toJson.depth ≤ fuel) (mode : Strictness) :
    Faithful fuel (StyledBlock.read? mode fuel) b.toJson b := by
  obtain ⟨inner, rfl⟩ := Nat.exists_eq_succ_of_ne_zero
    (Nat.ne_of_gt (Nat.lt_of_lt_of_le b.depth_pos hfuel))
  unfold StyledBlock.scalars at h
  unfold StyledBlock.toJson at hfuel ⊢
  cases b with
  | heading level p =>
    have hlevel := (Faithful.uint8 level 5).required
    have hparagraph := (StyledParagraph.faithful h .lenient).required
    have hslots : ∀ slot ∈ [some (Value.ofNat level.toNat), some p.toJson], ∀ v ∈ slot,
        v.Legible 5 := by
      simp only [List.forall_mem_cons]
      exact ⟨hlevel.legible, hparagraph.legible, List.forall_mem_nil _⟩
    obtain ⟨hlegible, hkind, hfields⟩ :=
      Value.tagged_parts "heading" StyledBlock.headingFields hslots (by decide) rfl
    refine ⟨hlegible.within hfuel, ?_⟩
    simp only [StyledBlock.read?, hkind, hfields, hlevel.reads, hparagraph.reads,
      Option.bind_eq_bind, Option.bind_some, Option.pure_def]
  | paragraph p =>
    obtain ⟨hlegible, hkind, _⟩ := Value.tagged_parts "paragraph" StyledParagraph.fields
      (StyledParagraph.slots_legible h) (by decide) rfl
    have hread : StyledParagraph.ofJson? .lenient (.record StyledParagraph.fields p.slots) =
        some p := (StyledParagraph.faithful h .lenient).reads
    refine ⟨hlegible.within hfuel, ?_⟩
    simp only [StyledBlock.read?, hkind, hread, Option.map_some]
  | run r =>
    obtain ⟨hlegible, hkind, _⟩ :=
      Value.tagged_parts "run" StyledRun.fields (StyledRun.slots_legible h) (by decide) rfl
    have hread : StyledRun.ofJson? .lenient (.record StyledRun.fields r.slots) = some r :=
      (StyledRun.faithful h .lenient).reads
    refine ⟨hlegible.within hfuel, ?_⟩
    simp only [StyledBlock.read?, hkind, hread, Option.map_some]
  | table rows =>
    have hinner : Value.depthAll (StyledBlock.writtenRows rows) ≤ inner := by
      have hlt : (Value.array (StyledBlock.writtenRows rows)).depth < inner + 1 :=
        Nat.lt_of_lt_of_le (Value.depth_lt_tagged rfl List.mem_cons_self) hfuel
      exact Nat.le_of_lt_succ (Nat.lt_trans (Value.depthAll_lt_array _) hlt)
    have hrows := (Faithful.list (styledRows_faithful rows h hinner)).required
    rw [Value.ofList, ← StyledBlock.writtenRows_eq] at hrows
    have hslots : ∀ slot ∈ [some (Value.array (StyledBlock.writtenRows rows))],
        ∀ v ∈ slot, v.Legible (inner + 1) := List.forall_mem_singleton.mpr hrows.legible
    obtain ⟨hlegible, hkind, hfields⟩ :=
      Value.tagged_parts "table" StyledBlock.tableFields hslots (by decide) rfl
    refine ⟨hlegible.within hfuel, ?_⟩
    simp only [StyledBlock.read?, hkind, hfields, hrows.reads, Option.bind_eq_bind,
      Option.bind_some, Option.pure_def]
  | pageBreak =>
    obtain ⟨hlegible, hkind⟩ := Value.tagged_nil_parts "page_break" 0
    refine ⟨hlegible.within hfuel, ?_⟩
    simp only [StyledBlock.read?, hkind]
    rfl
  | toc contents =>
    obtain ⟨hlegible, hkind, _⟩ := Value.tagged_parts "table_of_contents" StyledToc.fields
      (StyledToc.slots_legible h) (by decide) rfl
    have hread : StyledToc.ofJson? .lenient (.record StyledToc.fields contents.slots) =
        some contents := (StyledToc.faithful h .lenient).reads
    refine ⟨hlegible.within hfuel, ?_⟩
    simp only [StyledBlock.read?, hkind, hread, Option.map_some]
  termination_by structural b

/-- Styled blocks are read back one by one, each within the depth of all. -/
theorem styledBlocks_faithful (blocks : List StyledBlock)
    (h : ∀ x ∈ styledBlocksScalars blocks, x.Portable) {fuel : Nat}
    (hdepth : Value.depthAll (StyledBlock.writtenBlocks blocks) ≤ fuel) :
    ∀ b ∈ blocks, Faithful fuel (StyledBlock.read? .lenient fuel) b.toJson b := by
  cases blocks with
  | nil => nofun
  | cons b rest =>
    rw [styledBlocksScalars, List.forall_mem_append] at h
    rw [StyledBlock.writtenBlocks, Value.depthAll, Nat.max_le] at hdepth
    exact List.forall_mem_cons.mpr
      ⟨b.faithful h.1 hdepth.1 .lenient, styledBlocks_faithful rest h.2 hdepth.2⟩
  termination_by structural blocks

/-- Styled cells are read back one by one, each within the depth of all. -/
theorem styledCells_faithful (cells : List (Cell StyledBlock Color))
    (h : ∀ x ∈ styledCellsScalars cells, x.Portable) {fuel : Nat}
    (hdepth : Value.depthAll (StyledBlock.writtenCells cells) ≤ fuel) :
    ∀ c ∈ cells, Faithful fuel (Cell.ofJson? (StyledBlock.read? .lenient fuel) Color.ofJson?)
      (StyledBlock.cellToJson c) c := by
  cases cells with
  | nil => nofun
  | cons c rest =>
    obtain ⟨blocks, shading⟩ := c
    simp only [styledCellsScalars, List.forall_mem_append, List.forall_mem_map,
      Option.mem_toList] at h
    obtain ⟨⟨hblocks, hshading⟩, hrest⟩ := h
    rw [StyledBlock.writtenCells, Value.depthAll, Nat.max_le] at hdepth
    have hblocks := styledBlocks_faithful blocks hblocks
      (Nat.le_trans Cell.depthAll_le_written hdepth.1)
    have hshading : FaithfulField (fuel + 1) (Value.optional Color.ofJson?)
        (shading.map Color.toJson) shading :=
      .optional (fun c hc => (hshading c hc).color _) nofun
    have hcell := Cell.faithful hblocks hshading
    rw [← StyledBlock.writtenBlocks_eq] at hcell
    exact List.forall_mem_cons.mpr
      ⟨hcell.within hdepth.1, styledCells_faithful rest hrest hdepth.2⟩
  termination_by structural cells

/-- Styled rows are read back one by one, each within the depth of all. -/
theorem styledRows_faithful (rows : List (Row StyledBlock Color))
    (h : ∀ x ∈ styledRowsScalars rows, x.Portable) {fuel : Nat}
    (hdepth : Value.depthAll (StyledBlock.writtenRows rows) ≤ fuel) :
    ∀ r ∈ rows, Faithful fuel
      (Row.ofJson? (StyledBlock.read? .lenient fuel) Color.ofJson? Row.mark)
      (StyledBlock.rowToJson r) r := by
  cases rows with
  | nil => nofun
  | cons r rest =>
    obtain ⟨cells, header⟩ := r
    rw [styledRowsScalars, List.forall_mem_append] at h
    rw [StyledBlock.writtenRows, Value.depthAll, Nat.max_le] at hdepth
    have hcells := styledCells_faithful cells h.1 (Nat.le_trans Row.depthAll_le_written hdepth.1)
    have hrow := Row.faithful hcells (Faithful.bool header (fuel + 1)).required
    rw [← StyledBlock.writtenCells_eq] at hrow
    exact List.forall_mem_cons.mpr
      ⟨hrow.within hdepth.1, styledRows_faithful rest h.2 hdepth.2⟩
  termination_by structural rows

end

/-- The numbers in some styled blocks are those in each of them. -/
theorem styledBlocksScalars_eq (blocks : List StyledBlock) :
    styledBlocksScalars blocks = blocks.flatMap StyledBlock.scalars := by
  induction blocks with
  | nil => rfl
  | cons b rest ih => rw [styledBlocksScalars, ih, List.flatMap_cons]

/-- Each styled block of a list is read as deep as it is itself. -/
theorem styledBlocks_faithful_own {blocks : List StyledBlock}
    (h : ∀ x ∈ styledBlocksScalars blocks, x.Portable) (mode : Strictness) :
    Faithful (Value.ofList StyledBlock.toJson blocks).depth
      (Value.list? (StyledBlock.ofJson? mode)) (.ofList StyledBlock.toJson blocks) blocks := by
  rw [styledBlocksScalars_eq, List.forall_mem_flatMap] at h
  refine .ownList fun b hb => ?_
  have hfaithful := b.faithful (h b hb) (Nat.le_refl _) mode
  exact ⟨hfaithful.legible, hfaithful.reads⟩

/-- A styled section is read back from what is written for it. -/
theorem StyledSection.faithful {s : StyledSection}
    (h : ∀ x ∈ styledBlocksScalars s.blocks, x.Portable) :
    Faithful s.toJson.depth ofJson? s.toJson s := by
  have hpage := s.page.faithful.required
  have hblocks := (styledBlocks_faithful_own h .strict).required
  refine Value.faithful_record_own (by decide) rfl ?_ ?_
  · simp only [List.forall_mem_cons]
    exact ⟨⟨_, hpage.legible⟩, ⟨_, hblocks.legible⟩, List.forall_mem_nil _⟩
  · simp only [hpage.reads, hblocks.reads, Option.bind_eq_bind, Option.bind_some,
      Option.pure_def]

/-- A styled document is faithful within its own depth. -/
theorem StyledDocument.faithful {doc : StyledDocument} (h : ∀ x ∈ doc.scalars, x.Portable) :
    Faithful doc.toJson.depth ofJson? doc.toJson doc := by
  simp only [scalars, List.forall_mem_append, List.forall_mem_flatMap] at h
  obtain ⟨hstyles, hsections⟩ := h
  have htitle := (Faithful.text doc.title 0).required
  have htheme := (Faithful.text doc.theme 0).required
  have hstyles := (Faithful.list fun d hd => StyleDefinition.faithful (hstyles d hd)).required
  have hsections := (Faithful.ownList fun s hs => StyledSection.faithful (hsections s hs)).required
  refine Value.faithful_record_own (by decide) rfl ?_ ?_
  · simp only [List.forall_mem_cons]
    exact ⟨⟨_, htitle.legible⟩, ⟨_, htheme.legible⟩, ⟨_, hstyles.legible⟩,
      ⟨_, hsections.legible⟩, List.forall_mem_nil _⟩
  · simp only [htitle.reads, htheme.reads, hstyles.reads, hsections.reads, Option.bind_eq_bind,
      Option.bind_some, Option.pure_def]

end Folio
