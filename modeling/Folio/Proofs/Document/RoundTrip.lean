import Folio.Document.Json
import Folio.Proofs.Json.Depth
import Folio.Proofs.Style.RoundTrip

/-!
# Reading written documents

A document is read from its text as it was. Tables nest to any depth, so there is no bound for all
blocks: a block is read back by every reader that goes as deep as the block, and what stands in a
cell is shallower than the table around it.
-/

namespace Folio

open Json

/-- The scalars of a run. -/
def Run.scalars (r : Run) : List Scalar := r.overrides.scalars

/-- The scalars of a paragraph. -/
def Paragraph.scalars (p : Paragraph) : List Scalar :=
  p.overrides.scalars ++ p.runs.flatMap Run.scalars

mutual

/-- The scalars of a block. -/
def Block.scalars : Block → List Scalar
  | .heading _ p => p.scalars
  | .paragraph p => p.scalars
  | .run r => r.scalars
  | .table ⟨_, rows⟩ => rowsScalars rows
  | .pageBreak => []
  | .toc _ => []

/-- The scalars of the blocks of a list. -/
def blocksScalars : List Block → List Scalar
  | [] => []
  | b :: rest => b.scalars ++ blocksScalars rest

/-- The scalars of the cells of a row, those of their shadings among them. -/
def cellsScalars : List (Cell Block ColorRef) → List Scalar
  | [] => []
  | ⟨blocks, shading⟩ :: rest =>
    blocksScalars blocks ++ shading.toList.flatMap ColorRef.scalars ++ cellsScalars rest

/-- The scalars of the rows of a table. -/
def rowsScalars : List (Row Block ColorRef) → List Scalar
  | [] => []
  | ⟨cells, _⟩ :: rest => cellsScalars cells ++ rowsScalars rest

end

/-- All scalars of a document. -/
def Document.scalars (doc : Document) : List Scalar :=
  doc.sections.flatMap fun s => blocksScalars s.blocks

namespace Run

variable {r : Run} (h : ∀ x ∈ r.scalars, x.Portable)

include h

/-- What is written for a run can be read. -/
theorem slots_legible : ∀ slot ∈ r.slots, ∀ v ∈ slot, v.Legible 3 := by
  simp only [slots, List.forall_mem_cons]
  exact ⟨(Faithful.text r.text 3).forall_legible, (optional_text r.styleId 3).legible,
    (StyleProperties.slot_faithful h .strict).legible, List.forall_mem_nil _⟩

/-- A run is read back from what is written for it. -/
theorem faithful (mode : Strictness) : Faithful 4 (ofJson? mode) r.toJson r := by
  refine Value.faithful_record (by decide) rfl (slots_legible h) ?_
  simp only [slots, (Faithful.text r.text 3).required.reads, (optional_text r.styleId 3).reads,
    (StyleProperties.slot_faithful h mode).reads, Option.bind_eq_bind, Option.bind_some,
    Option.pure_def]

end Run

namespace Paragraph

variable {p : Paragraph} (h : ∀ x ∈ p.scalars, x.Portable)

include h

/-- The parts of a paragraph are read back each from its own field. -/
theorem parts_faithful (mode : Strictness) :
    FaithfulField 3 (Value.orElse (StyleProperties.ofJson? mode) {}) p.overrides.slot
        p.overrides ∧
      FaithfulField 5 (Value.required (Value.list? (Run.ofJson? mode)))
        (some (.ofList Run.toJson p.runs)) p.runs := by
  rw [scalars, List.forall_mem_append, List.forall_mem_flatMap] at h
  obtain ⟨hoverrides, hruns⟩ := h
  have hruns := Faithful.list fun r hr => Run.faithful (hruns r hr) mode
  exact ⟨StyleProperties.slot_faithful hoverrides mode, hruns.required⟩

/-- What is written for a paragraph can be read. -/
theorem slots_legible : ∀ slot ∈ p.slots, ∀ v ∈ slot, v.Legible 5 := by
  obtain ⟨hoverrides, hruns⟩ := parts_faithful h .strict
  simp only [slots, List.forall_mem_cons]
  exact ⟨(optional_text p.styleId 5).legible, (hoverrides.mono (by decide)).legible,
    hruns.legible, List.forall_mem_nil _⟩

/-- A paragraph is read back from what is written for it. -/
theorem faithful (mode : Strictness) : Faithful 6 (ofJson? mode) p.toJson p := by
  obtain ⟨hoverrides, hruns⟩ := parts_faithful h mode
  refine Value.faithful_record (by decide) rfl (slots_legible h) ?_
  simp only [slots, (optional_text p.styleId 5).reads, hoverrides.reads, hruns.reads,
    Option.bind_eq_bind, Option.bind_some, Option.pure_def]

end Paragraph

namespace TocRequest

/-- What is written for a table of contents can be read. -/
theorem slots_legible (toc : TocRequest) : ∀ slot ∈ toc.slots, ∀ v ∈ slot, v.Legible 0 := by
  simp only [slots, List.forall_mem_cons]
  exact ⟨(optional_text toc.title 0).legible, (Faithful.uint8 toc.minLevel 0).forall_legible,
    (Faithful.uint8 toc.maxLevel 0).forall_legible, (Faithful.bool toc.hyperlink 0).forall_legible,
    List.forall_mem_nil _⟩

/-- A request for a table of contents is read back from what is written for it. -/
theorem faithful (toc : TocRequest) : Faithful 1 ofJson? toc.toJson toc := by
  refine Value.faithful_record (by decide) rfl toc.slots_legible ?_
  have hhyperlink := (Faithful.bool toc.hyperlink 0).orElse false
  simp only [slots, (optional_text toc.title 0).reads,
    (Faithful.uint8 toc.minLevel 0).required.reads, (Faithful.uint8 toc.maxLevel 0).required.reads,
    hhyperlink.reads, Option.bind_eq_bind, Option.bind_some, Option.pure_def]

end TocRequest

section Tables

variable {β γ : Type} {limit : Nat} {block : Value → Option β} {shade : Value → Option γ}

/-- A cell is read back if its blocks and its shading are. -/
theorem Cell.faithful {write : β → Value} {field : Option Value} {blocks : List β}
    {shading : Option γ} (hblocks : ∀ b ∈ blocks, Faithful limit block (write b) b)
    (hshading : FaithfulField (limit + 1) (Value.optional shade) field shading) :
    Faithful (limit + 2) (Cell.ofJson? block shade) (Cell.written (blocks.map write) field)
      ⟨blocks, shading⟩ := by
  have hblocks := (Faithful.list hblocks).required
  rw [Value.ofList] at hblocks
  refine Value.faithful_record (by decide) rfl ?_ ?_
  · simp only [List.forall_mem_cons]
    exact ⟨hblocks.legible, hshading.legible, List.forall_mem_nil _⟩
  · simp only [hblocks.reads, hshading.reads, Option.bind_eq_bind, Option.bind_some,
      Option.pure_def]

/-- A row is read back if its cells and its mark are. -/
theorem Row.faithful {write : Cell β γ → Value} {mark : Option Value → Option Bool}
    {cells : List (Cell β γ)} {header : Bool}
    (hcells : ∀ c ∈ cells, Faithful limit (Cell.ofJson? block shade) (write c) c)
    (hmark : FaithfulField (limit + 1) mark (some (.bool header)) header) :
    Faithful (limit + 2) (Row.ofJson? block shade mark) (Row.written (cells.map write) header)
      ⟨cells, header⟩ := by
  have hcells := (Faithful.list hcells).required
  rw [Value.ofList] at hcells
  refine Value.faithful_record (by decide) rfl ?_ ?_
  · simp only [List.forall_mem_cons]
    exact ⟨hcells.legible, hmark.legible, List.forall_mem_nil _⟩
  · simp only [hcells.reads, hmark.reads, Option.bind_eq_bind, Option.bind_some, Option.pure_def]

/-- What stands in a cell is shallower than the cell. -/
theorem Cell.depthAll_le_written {blocks : List Value} {shading : Option Value} :
    Value.depthAll blocks ≤ (Cell.written blocks shading).depth := by
  have hlt : (Value.array blocks).depth < (Cell.written blocks shading).depth :=
    Value.depth_lt_record rfl List.mem_cons_self
  exact Nat.le_of_lt (Nat.lt_trans (Value.depthAll_lt_array blocks) hlt)

/-- The cells of a row are shallower than the row. -/
theorem Row.depthAll_le_written {cells : List Value} {header : Bool} :
    Value.depthAll cells ≤ (Row.written cells header).depth := by
  have hlt : (Value.array cells).depth < (Row.written cells header).depth :=
    Value.depth_lt_record rfl List.mem_cons_self
  exact Nat.le_of_lt (Nat.lt_trans (Value.depthAll_lt_array cells) hlt)

end Tables

namespace Block

/-- Blocks are written one by one. -/
theorem writtenBlocks_eq (blocks : List Block) : writtenBlocks blocks = blocks.map toJson := by
  induction blocks with
  | nil => rfl
  | cons b rest ih => rw [writtenBlocks, ih, List.map_cons]

/-- Cells are written one by one. -/
theorem writtenCells_eq (cells : List (Cell Block ColorRef)) :
    writtenCells cells = cells.map cellToJson := by
  induction cells with
  | nil => rfl
  | cons c rest ih =>
    rw [writtenCells, ih]
    rfl

/-- Rows are written one by one. -/
theorem writtenRows_eq (rows : List (Row Block ColorRef)) :
    writtenRows rows = rows.map rowToJson := by
  induction rows with
  | nil => rfl
  | cons r rest ih =>
    rw [writtenRows, ih]
    rfl

/-- A block is written as a container. -/
theorem depth_pos (b : Block) : 0 < b.toJson.depth := by
  unfold toJson
  cases b <;> exact Nat.succ_pos _

end Block

mutual

/-- A block is read by every reader that goes as deep as the block. -/
theorem Block.faithful (b : Block) (h : ∀ x ∈ b.scalars, x.Portable) {fuel : Nat}
    (hfuel : b.toJson.depth ≤ fuel) (mode : Strictness) :
    Faithful fuel (Block.read? mode fuel) b.toJson b := by
  obtain ⟨inner, rfl⟩ := Nat.exists_eq_succ_of_ne_zero
    (Nat.ne_of_gt (Nat.lt_of_lt_of_le b.depth_pos hfuel))
  unfold Block.scalars at h
  unfold Block.toJson at hfuel ⊢
  cases b with
  | heading level p =>
    have hlevel := (Faithful.uint8 level 6).required
    have hparagraph := (Paragraph.faithful h .lenient).required
    have hslots : ∀ slot ∈ [some (Value.ofNat level.toNat), some p.toJson], ∀ v ∈ slot,
        v.Legible 6 := by
      simp only [List.forall_mem_cons]
      exact ⟨hlevel.legible, hparagraph.legible, List.forall_mem_nil _⟩
    obtain ⟨hlegible, hkind, hfields⟩ :=
      Value.tagged_parts "heading" Block.headingFields hslots (by decide) rfl
    refine ⟨hlegible.within hfuel, ?_⟩
    simp only [Block.read?, hkind, hfields, hlevel.reads, hparagraph.reads, Option.bind_eq_bind,
      Option.bind_some, Option.pure_def]
  | paragraph p =>
    obtain ⟨hlegible, hkind, _⟩ :=
      Value.tagged_parts "paragraph" Paragraph.fields (Paragraph.slots_legible h) (by decide) rfl
    have hread : Paragraph.ofJson? .lenient (.record Paragraph.fields p.slots) = some p :=
      (Paragraph.faithful h .lenient).reads
    refine ⟨hlegible.within hfuel, ?_⟩
    simp only [Block.read?, hkind, hread, Option.map_some]
  | run r =>
    obtain ⟨hlegible, hkind, _⟩ :=
      Value.tagged_parts "run" Run.fields (Run.slots_legible h) (by decide) rfl
    have hread : Run.ofJson? .lenient (.record Run.fields r.slots) = some r :=
      (Run.faithful h .lenient).reads
    refine ⟨hlegible.within hfuel, ?_⟩
    simp only [Block.read?, hkind, hread, Option.map_some]
  | table t =>
    obtain ⟨styleId, rows⟩ := t
    have hinner : Value.depthAll (Block.writtenRows rows) ≤ inner := by
      have hlt : (Value.array (Block.writtenRows rows)).depth < inner + 1 :=
        Nat.lt_of_lt_of_le (Value.depth_lt_tagged rfl (List.mem_cons_of_mem _ List.mem_cons_self))
          hfuel
      exact Nat.le_of_lt_succ (Nat.lt_trans (Value.depthAll_lt_array _) hlt)
    have hrows := (Faithful.list (rows_faithful rows h hinner)).required
    rw [Value.ofList, ← Block.writtenRows_eq] at hrows
    have hstyle := optional_text styleId (inner + 1)
    have hslots : ∀ slot ∈ [styleId.map Value.text, some (.array (Block.writtenRows rows))],
        ∀ v ∈ slot, v.Legible (inner + 1) := by
      simp only [List.forall_mem_cons]
      exact ⟨hstyle.legible, hrows.legible, List.forall_mem_nil _⟩
    obtain ⟨hlegible, hkind, hfields⟩ :=
      Value.tagged_parts "table" Table.fields hslots (by decide) rfl
    refine ⟨hlegible.within hfuel, ?_⟩
    simp only [Block.read?, hkind, Table.ofJson?, hfields, hstyle.reads, hrows.reads,
      Option.bind_eq_bind, Option.bind_some, Option.pure_def, Option.map_some]
  | pageBreak =>
    obtain ⟨hlegible, hkind⟩ := Value.tagged_nil_parts "page_break" 0
    refine ⟨hlegible.within hfuel, ?_⟩
    simp only [Block.read?, hkind]
    rfl
  | toc request =>
    obtain ⟨hlegible, hkind, _⟩ :=
      Value.tagged_parts "toc_placeholder" TocRequest.fields request.slots_legible (by decide) rfl
    have hread : TocRequest.ofJson? (.record TocRequest.fields request.slots) = some request :=
      request.faithful.reads
    refine ⟨hlegible.within hfuel, ?_⟩
    simp only [Block.read?, hkind, hread, Option.map_some]
  termination_by structural b

/-- Blocks are read back one by one, each within the depth of all. -/
theorem blocks_faithful (blocks : List Block) (h : ∀ x ∈ blocksScalars blocks, x.Portable)
    {fuel : Nat} (hdepth : Value.depthAll (Block.writtenBlocks blocks) ≤ fuel) :
    ∀ b ∈ blocks, Faithful fuel (Block.read? .lenient fuel) b.toJson b := by
  cases blocks with
  | nil => nofun
  | cons b rest =>
    rw [blocksScalars, List.forall_mem_append] at h
    rw [Block.writtenBlocks, Value.depthAll, Nat.max_le] at hdepth
    exact List.forall_mem_cons.mpr
      ⟨b.faithful h.1 hdepth.1 .lenient, blocks_faithful rest h.2 hdepth.2⟩
  termination_by structural blocks

/-- Cells are read back one by one, each within the depth of all. -/
theorem cells_faithful (cells : List (Cell Block ColorRef))
    (h : ∀ x ∈ cellsScalars cells, x.Portable) {fuel : Nat}
    (hdepth : Value.depthAll (Block.writtenCells cells) ≤ fuel) :
    ∀ c ∈ cells, Faithful fuel (Cell.ofJson? (Block.read? .lenient fuel) ColorRef.ofJson?)
      (Block.cellToJson c) c := by
  cases cells with
  | nil => nofun
  | cons c rest =>
    obtain ⟨blocks, shading⟩ := c
    rw [cellsScalars, List.forall_mem_append, List.forall_mem_append] at h
    obtain ⟨⟨hblocks, hshading⟩, hrest⟩ := h
    rw [Block.writtenCells, Value.depthAll, Nat.max_le] at hdepth
    have hblocks := blocks_faithful blocks hblocks
      (Nat.le_trans Cell.depthAll_le_written hdepth.1)
    have hcell := Cell.faithful hblocks (optional_colorRef hshading fuel)
    rw [← Block.writtenBlocks_eq] at hcell
    exact List.forall_mem_cons.mpr ⟨hcell.within hdepth.1, cells_faithful rest hrest hdepth.2⟩
  termination_by structural cells

/-- Rows are read back one by one, each within the depth of all. -/
theorem rows_faithful (rows : List (Row Block ColorRef)) (h : ∀ x ∈ rowsScalars rows, x.Portable)
    {fuel : Nat} (hdepth : Value.depthAll (Block.writtenRows rows) ≤ fuel) :
    ∀ r ∈ rows, Faithful fuel
      (Row.ofJson? (Block.read? .lenient fuel) ColorRef.ofJson? Row.markOrNone)
      (Block.rowToJson r) r := by
  cases rows with
  | nil => nofun
  | cons r rest =>
    obtain ⟨cells, header⟩ := r
    rw [rowsScalars, List.forall_mem_append] at h
    rw [Block.writtenRows, Value.depthAll, Nat.max_le] at hdepth
    have hcells := cells_faithful cells h.1 (Nat.le_trans Row.depthAll_le_written hdepth.1)
    have hmark := (Faithful.bool header (fuel + 1)).orElse false
    have hrow := Row.faithful hcells hmark
    rw [← Block.writtenCells_eq] at hrow
    exact List.forall_mem_cons.mpr ⟨hrow.within hdepth.1, rows_faithful rest h.2 hdepth.2⟩
  termination_by structural rows

end

/-- The numbers in some blocks are those in each of them. -/
theorem blocksScalars_eq (blocks : List Block) :
    blocksScalars blocks = blocks.flatMap Block.scalars := by
  induction blocks with
  | nil => rfl
  | cons b rest ih => rw [blocksScalars, ih, List.flatMap_cons]

/-- Each block of a list is read as deep as it is itself. -/
theorem blocks_faithful_own {blocks : List Block} (h : ∀ x ∈ blocksScalars blocks, x.Portable)
    (mode : Strictness) :
    Faithful (Value.ofList Block.toJson blocks).depth (Value.list? (Block.ofJson? mode))
      (.ofList Block.toJson blocks) blocks := by
  rw [blocksScalars_eq, List.forall_mem_flatMap] at h
  refine .ownList fun b hb => ?_
  have hfaithful := b.faithful (h b hb) (Nat.le_refl _) mode
  exact ⟨hfaithful.legible, hfaithful.reads⟩

/-- Margins are read back from what is written for them. -/
theorem Margins.faithful (m : Margins) : Faithful 1 ofJson? m.toJson m := by
  have htop := (Faithful.uint32 m.top 0).required
  have hright := (Faithful.uint32 m.right 0).required
  have hbottom := (Faithful.uint32 m.bottom 0).required
  have hleft := (Faithful.uint32 m.left 0).required
  refine Value.faithful_record (by decide) rfl ?_ ?_
  · simp only [List.forall_mem_cons]
    exact ⟨htop.legible, hright.legible, hbottom.legible, hleft.legible, List.forall_mem_nil _⟩
  · simp only [htop.reads, hright.reads, hbottom.reads, hleft.reads, Option.bind_eq_bind,
      Option.bind_some, Option.pure_def]

/-- The setup of a page is read back from what is written for it. -/
theorem PageSetup.faithful (page : PageSetup) : Faithful 2 ofJson? page.toJson page := by
  have hwidth := (Faithful.uint32 page.width 1).required
  have hheight := (Faithful.uint32 page.height 1).required
  have hmargins := page.margins.faithful.required
  refine Value.faithful_record (by decide) rfl ?_ ?_
  · simp only [List.forall_mem_cons]
    exact ⟨hwidth.legible, hheight.legible, hmargins.legible, List.forall_mem_nil _⟩
  · simp only [hwidth.reads, hheight.reads, hmargins.reads, Option.bind_eq_bind,
      Option.bind_some, Option.pure_def]

/-- A section is read back from what is written for it. -/
theorem Section.faithful {s : Section} (h : ∀ x ∈ blocksScalars s.blocks, x.Portable) :
    Faithful s.toJson.depth ofJson? s.toJson s := by
  have hpage := s.page.faithful.required
  have hblocks := (blocks_faithful_own h .strict).required
  refine Value.faithful_record_own (by decide) rfl ?_ ?_
  · simp only [List.forall_mem_cons]
    exact ⟨⟨_, hpage.legible⟩, ⟨_, hblocks.legible⟩, List.forall_mem_nil _⟩
  · simp only [hpage.reads, hblocks.reads, Option.bind_eq_bind, Option.bind_some,
      Option.pure_def]

/-- A document is faithful within its own depth. -/
theorem Document.faithful {doc : Document} (h : ∀ x ∈ doc.scalars, x.Portable) :
    Faithful doc.toJson.depth ofJson? doc.toJson doc := by
  rw [scalars, List.forall_mem_flatMap] at h
  have htitle := (Faithful.text doc.title 0).required
  have hsections := (Faithful.ownList fun s hs => Section.faithful (h s hs)).required
  refine Value.faithful_record_own (by decide) rfl ?_ ?_
  · simp only [List.forall_mem_cons]
    exact ⟨⟨_, htitle.legible⟩, ⟨_, hsections.legible⟩, List.forall_mem_nil _⟩
  · simp only [htitle.reads, hsections.reads, Option.bind_eq_bind, Option.bind_some,
      Option.pure_def]

end Folio
