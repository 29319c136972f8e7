import Folio.Proofs.Document.Structure

/-!
# Outlines and tables of contents

The outline of a document is made from its sections before anything is styled, and lists the
headings that stand directly in one. Wherever a table of contents stands, before the headings or
deep in a table, it is filled from the whole outline. A block of a document is found again in the
styled document at the same position, which leads through tables down to the block.
-/

namespace Folio

/-- A place in the rows of a table: a row, a cell of it, and a block of that. -/
structure TablePlace where
  /-- The position of the row. -/
  row : Nat
  /-- The position of the cell in its row. -/
  cell : Nat
  /-- The position of the block in its cell. -/
  block : Nat

/-- Where a block stands: in a section, and from there through tables, the outermost first. -/
structure BlockPosition where
  /-- The position of the section. -/
  sectionIndex : Nat
  /-- The position in the section. -/
  blockIndex : Nat
  /-- The places in the tables on the way. -/
  places : List TablePlace

section Lookup

variable {β γ : Type}

/-- The block at a place in rows. -/
def TablePlace.find? (place : TablePlace) (rows : List (Row β γ)) : Option β :=
  rows[place.row]?.bind fun row => row.cells[place.cell]?.bind fun cell => cell.blocks[place.block]?

/-- The block that places lead to from a block down, when `rowsOf` gives the rows of a block. -/
def descend? (rowsOf : β → List (Row β γ)) : List TablePlace → β → Option β
  | [], b => some b
  | place :: rest, b => (place.find? (rowsOf b)).bind (descend? rowsOf rest)

/-- The block at a position in sections, when `rowsOf` gives the rows of a block. -/
def BlockPosition.find? (rowsOf : β → List (Row β γ)) (pos : BlockPosition)
    (sections : List (List β)) : Option β :=
  sections[pos.sectionIndex]?.bind fun blocks =>
    blocks[pos.blockIndex]?.bind (descend? rowsOf pos.places)

end Lookup

/-- The rows of a table; no other block has any. -/
def Block.rows : Block → List (Row Block ColorRef)
  | .table t => t.rows
  | _ => []

/-- The rows of a styled table; no other block has any. -/
def StyledBlock.rows : StyledBlock → List (Row StyledBlock Color)
  | .table rows => rows
  | _ => []

/-- The block at a position. -/
def Document.block? (doc : Document) (pos : BlockPosition) : Option Block :=
  pos.find? Block.rows (doc.sections.map (·.blocks))

/-- The styled block at a position. -/
def StyledDocument.block? (doc : StyledDocument) (pos : BlockPosition) : Option StyledBlock :=
  pos.find? StyledBlock.rows (doc.sections.map (·.blocks))

section Related

variable {α β α' β' : Type} {R : α → α' → Prop}

/-- Related lists have related elements at each position. -/
theorem rel_getElem? {xs : List α} {ys : List α'} (h : List.Forall₂ R xs ys) (i : Nat) :
    Option.Rel R xs[i]? ys[i]? := by
  induction h generalizing i with
  | nil => exact .none
  | cons hab _ ih =>
    cases i with
    | zero => exact .some hab
    | succ i => exact ih i

/-- Related outcomes go on to related outcomes if the next steps are related. -/
theorem rel_bind {S : β → β' → Prop} {f : α → Option β} {g : α' → Option β'} {x : Option α}
    {y : Option α'} (h : Option.Rel R x y) (hfg : ∀ a b, R a b → Option.Rel S (f a) (g b)) :
    Option.Rel S (x.bind f) (y.bind g) := by
  cases h with
  | none => exact .none
  | some hab => exact hfg _ _ hab

variable {γ γ' : Type}

/-- Cells with related blocks, one by one. -/
def Cell.Related (R : α → α' → Prop) (c : Cell α γ) (c' : Cell α' γ') : Prop :=
  List.Forall₂ R c.blocks c'.blocks

/-- Rows with related cells, one by one. -/
def Row.Related (R : α → α' → Prop) (r : Row α γ) (r' : Row α' γ') : Prop :=
  List.Forall₂ (Cell.Related R) r.cells r'.cells

/-- A place in a table leads to related contents of related rows. -/
theorem TablePlace.rel_find? {rows : List (Row α γ)} {rows' : List (Row α' γ')}
    (h : List.Forall₂ (Row.Related R) rows rows') (place : TablePlace) :
    Option.Rel R (place.find? rows) (place.find? rows') :=
  rel_bind (rel_getElem? h place.row) fun _ _ hrow =>
    rel_bind (rel_getElem? hrow place.cell) fun _ _ hcell => rel_getElem? hcell place.block

variable {rowsOf : α → List (Row α γ)} {rowsOf' : α' → List (Row α' γ')}

/-- Places lead from related blocks to related blocks, if rows of related blocks are related. -/
theorem rel_descend? (hrows : ∀ a b, R a b → List.Forall₂ (Row.Related R) (rowsOf a) (rowsOf' b))
    (places : List TablePlace) {a : α} {b : α'} (h : R a b) :
    Option.Rel R (descend? rowsOf places a) (descend? rowsOf' places b) := by
  -- the places are followed from the outermost table inwards, so the blocks change on the way
  induction places generalizing a b with
  | nil => exact .some h
  | cons place rest ih => exact rel_bind (place.rel_find? (hrows a b h)) fun _ _ => ih

/-- A position leads to related blocks of related sections. -/
theorem BlockPosition.rel_find?
    (hrows : ∀ a b, R a b → List.Forall₂ (Row.Related R) (rowsOf a) (rowsOf' b))
    {sections : List (List α)} {sections' : List (List α')}
    (h : List.Forall₂ (List.Forall₂ R) sections sections') (pos : BlockPosition) :
    Option.Rel R (pos.find? rowsOf sections) (pos.find? rowsOf' sections') :=
  rel_bind (rel_getElem? h pos.sectionIndex) fun _ _ hblocks =>
    rel_bind (rel_getElem? hblocks pos.blockIndex) fun _ _ => rel_descend? hrows pos.places

end Related

variable {styling : Styling} {outline : List OutlineEntry}

/-- Whether a styled block is what styling makes of a block, in whatever surroundings. -/
def Block.Becomes (styling : Styling) (outline : List OutlineEntry) (b : Block)
    (b' : StyledBlock) : Prop :=
  ∃ around, b.styled styling outline around = .ok b'

/-- Every block of a list becomes the styled block at its position. -/
theorem forall₂_of_styledBlocks {around : Surroundings} {blocks : List Block}
    {blocks' : List StyledBlock} (h : styledBlocks styling outline around blocks = .ok blocks') :
    List.Forall₂ (Block.Becomes styling outline) blocks blocks' := by
  induction blocks generalizing blocks' with
  | nil =>
    cases h
    exact .nil
  | cons b rest ih =>
    obtain ⟨b', hb, h⟩ := bind_eq_ok_iff.mp h
    obtain ⟨rest', hrest, h⟩ := bind_eq_ok_iff.mp h
    cases h
    exact .cons ⟨around, hb⟩ (ih hrest)

/-- Every block of a cell becomes the styled block at its position. -/
theorem forall₂_of_styledCells {around : Surroundings} {cells : List (Cell Block ColorRef)}
    {cells' : List (Cell StyledBlock Color)}
    (h : styledCells styling outline around cells = .ok cells') :
    List.Forall₂ (Cell.Related (Block.Becomes styling outline)) cells cells' := by
  induction cells generalizing cells' with
  | nil =>
    cases h
    exact .nil
  | cons c rest ih =>
    obtain ⟨blocks', hblocks, h⟩ := bind_eq_ok_iff.mp h
    obtain ⟨shading', _, h⟩ := bind_eq_ok_iff.mp h
    obtain ⟨rest', hrest, h⟩ := bind_eq_ok_iff.mp h
    cases h
    exact .cons (forall₂_of_styledBlocks hblocks) (ih hrest)

/-- Every block of a table becomes the styled block at its position. -/
theorem forall₂_of_styledRows {around : Surroundings} {rows : List (Row Block ColorRef)}
    {rows' : List (Row StyledBlock Color)}
    (h : styledRows styling outline around rows = .ok rows') :
    List.Forall₂ (Row.Related (Block.Becomes styling outline)) rows rows' := by
  induction rows generalizing rows' with
  | nil =>
    cases h
    exact .nil
  | cons r rest ih =>
    obtain ⟨cells', hcells, h⟩ := bind_eq_ok_iff.mp h
    obtain ⟨rest', hrest, h⟩ := bind_eq_ok_iff.mp h
    cases h
    exact .cons (forall₂_of_styledCells hcells) (ih hrest)

/-- The rows of a styled table come from the rows of the table; other blocks have none and get
none. -/
theorem Block.Becomes.rows {b : Block} {b' : StyledBlock} (h : b.Becomes styling outline b') :
    List.Forall₂ (Row.Related (Block.Becomes styling outline)) b.rows b'.rows := by
  obtain ⟨around, h⟩ := h
  unfold Block.styled at h
  cases b with
  | table t =>
    obtain ⟨own, _, h⟩ := bind_eq_ok_iff.mp h
    obtain ⟨rows', hrows, h⟩ := bind_eq_ok_iff.mp h
    cases h
    exact forall₂_of_styledRows hrows
  | pageBreak =>
    cases h
    exact .nil
  | heading _ _ | paragraph _ | run _ | toc _ =>
    obtain ⟨_, _, h⟩ := bind_eq_ok_iff.mp h
    cases h
    exact .nil

/-- The sections of a styled document hold what styling makes of the blocks of the sections. -/
theorem Document.forall₂_sections {doc : Document} {out : StyledDocument}
    (h : doc.styled styling = .ok out) :
    List.Forall₂ (fun s s' => List.Forall₂ (Block.Becomes styling doc.outline) s.blocks s'.blocks)
      doc.sections out.sections := by
  obtain ⟨sections, hsections, h⟩ := bind_eq_ok_iff.mp h
  cases h
  refine ((mapM_eq_ok_iff fun _ _ => Iff.rfl).mp hsections).imp fun s s' hs => ?_
  obtain ⟨blocks, hblocks, hs⟩ := bind_eq_ok_iff.mp hs
  cases hs
  exact forall₂_of_styledBlocks hblocks

/-- What stands at a position of the styled document is what styling makes of the block that stands
at that position of the document, and where one has no block the other has none. -/
theorem Document.rel_block? {doc : Document} {out : StyledDocument}
    (h : doc.styled styling = .ok out) (pos : BlockPosition) :
    Option.Rel (Block.Becomes styling doc.outline) (doc.block? pos) (out.block? pos) := by
  refine BlockPosition.rel_find? (fun _ _ => Block.Becomes.rows) ?_ pos
  rw [List.forall₂_map_left_iff, List.forall₂_map_right_iff]
  exact Document.forall₂_sections h

/-- Whether an entry stands before another: in an earlier section, or earlier in the same one. -/
def OutlineEntry.Before (e f : OutlineEntry) : Prop :=
  e.sectionIndex < f.sectionIndex ∨
    e.sectionIndex = f.sectionIndex ∧ e.blockIndex < f.blockIndex

/-- The level and the text of an entry. -/
def OutlineEntry.heading (e : OutlineEntry) : UInt8 × String := (e.level, e.text)

namespace Document

/-- The outline of a section has an entry for each heading, at the position where it stands. -/
theorem mem_sectionOutline_iff {sectionIndex n : Nat} {blocks : List Block} {e : OutlineEntry} :
    e ∈ sectionOutline sectionIndex n blocks ↔ e.sectionIndex = sectionIndex ∧
      ∃ p, (.heading e.level p, e.blockIndex) ∈ blocks.zipIdx n ∧ e.text = p.plainText := by
  fun_induction sectionOutline sectionIndex n blocks with
  | case1 => simp
  | case2 n level p rest ih =>
    rw [List.mem_cons, ih, List.zipIdx_cons]
    constructor
    · rintro (rfl | ⟨hk, q, hq, htext⟩)
      · exact ⟨rfl, p, List.mem_cons_self, rfl⟩
      · exact ⟨hk, q, List.mem_cons_of_mem _ hq, htext⟩
    · rintro ⟨hk, q, hq, htext⟩
      rcases List.mem_cons.mp hq with heq | hq
      · obtain ⟨_, _, _, _⟩ := e
        cases heq
        exact .inl (by rw [← hk, ← htext])
      · exact .inr ⟨hk, q, hq, htext⟩
  | case3 n b rest hb ih =>
    have hne : ∀ p, (.heading e.level p, e.blockIndex) ≠ (b, n) := by
      intro p heq
      exact hb e.level p (congrArg Prod.fst heq).symm
    simp only [ih, List.zipIdx_cons, List.mem_cons, hne, false_or]

/-- The entries of a section stand in the order of its blocks. -/
theorem pairwise_sectionOutline (sectionIndex n : Nat) (blocks : List Block) :
    (sectionOutline sectionIndex n blocks).Pairwise OutlineEntry.Before := by
  fun_induction sectionOutline sectionIndex n blocks with
  | case1 => exact .nil
  | case2 n level p rest ih =>
    refine List.pairwise_cons.mpr ⟨fun e he => ?_, ih⟩
    obtain ⟨hk, q, hq, _⟩ := mem_sectionOutline_iff.mp he
    exact .inr ⟨hk.symm, List.le_snd_of_mem_zipIdx hq⟩
  | case3 n b rest hb ih => exact ih

/-- The outline of some sections has an entry for each heading in one of them. -/
theorem mem_outlineFrom_iff {n : Nat} {sections : List Section} {e : OutlineEntry} :
    e ∈ outlineFrom n sections ↔ ∃ s p, (s, e.sectionIndex) ∈ sections.zipIdx n ∧
      s.blocks[e.blockIndex]? = some (.heading e.level p) ∧ e.text = p.plainText := by
  induction sections generalizing n with
  | nil => simp [outlineFrom]
  | cons s rest ih =>
    rw [outlineFrom, List.mem_append, ih, mem_sectionOutline_iff, List.zipIdx_cons]
    constructor
    · rintro (⟨hk, p, hp, htext⟩ | ⟨s', p, hs', hp, htext⟩)
      · refine ⟨s, p, ?_, List.mem_zipIdx_iff_getElem?.mp hp, htext⟩
        rw [hk]
        exact List.mem_cons_self
      · exact ⟨s', p, List.mem_cons_of_mem _ hs', hp, htext⟩
    · rintro ⟨s', p, hs', hp, htext⟩
      rcases List.mem_cons.mp hs' with heq | hs'
      · obtain ⟨rfl, hk⟩ := Prod.mk.inj heq
        exact .inl ⟨hk, p, List.mem_zipIdx_iff_getElem?.mpr hp, htext⟩
      · exact .inr ⟨s', p, hs', hp, htext⟩

/-- The outline of some sections goes from front to back. -/
theorem pairwise_outlineFrom (n : Nat) (sections : List Section) :
    (outlineFrom n sections).Pairwise OutlineEntry.Before := by
  induction sections generalizing n with
  | nil => exact .nil
  | cons s rest ih =>
    refine List.pairwise_append.mpr ⟨pairwise_sectionOutline n 0 s.blocks, ih (n + 1), ?_⟩
    intro e he f hf
    -- entries of later sections are numbered on from the next section
    obtain ⟨hk, _⟩ := mem_sectionOutline_iff.mp he
    obtain ⟨s', _, hs', _⟩ := mem_outlineFrom_iff.mp hf
    have hlt := List.le_snd_of_mem_zipIdx hs'
    exact .inl (hk ▸ hlt)

/-- The entries of the outline are the headings that stand directly in a section, each with its
position. -/
theorem mem_outline_iff {doc : Document} {e : OutlineEntry} :
    e ∈ doc.outline ↔ ∃ s p, doc.sections[e.sectionIndex]? = some s ∧
      s.blocks[e.blockIndex]? = some (.heading e.level p) ∧ e.text = p.plainText := by
  simp only [outline, mem_outlineFrom_iff, List.mem_zipIdx_iff_getElem?]

end Document

/-- The level and the text of a heading. -/
def Block.heading? : Block → Option (UInt8 × String)
  | .heading level p => some (level, p.plainText)
  | _ => none

/-- A styled block is a heading when the block is, of the same level and text. -/
theorem Block.Becomes.heading? {b : Block} {b' : StyledBlock}
    (h : b.Becomes styling outline b') : StyledDocument.heading? b' = b.heading? := by
  obtain ⟨around, h⟩ := h
  unfold Block.styled at h
  cases b with
  | heading level p =>
    obtain ⟨p', hp, h⟩ := bind_eq_ok_iff.mp h
    cases h
    exact congrArg (fun text => some (level, text)) (Paragraph.plainText_of_styled hp)
  | table t =>
    obtain ⟨_, _, h⟩ := bind_eq_ok_iff.mp h
    obtain ⟨_, _, h⟩ := bind_eq_ok_iff.mp h
    cases h
    rfl
  | pageBreak =>
    cases h
    rfl
  | paragraph _ | run _ | toc _ =>
    obtain ⟨_, _, h⟩ := bind_eq_ok_iff.mp h
    cases h
    rfl

/-- Styling keeps the headings of a list of blocks. -/
theorem filterMap_heading?_eq {blocks : List Block} {blocks' : List StyledBlock}
    (h : List.Forall₂ (Block.Becomes styling outline) blocks blocks') :
    blocks'.filterMap StyledDocument.heading? = blocks.filterMap Block.heading? := by
  induction h with
  | nil => rfl
  | cons hb _ ih => rw [List.filterMap_cons, List.filterMap_cons, hb.heading?, ih]

namespace Document

/-- The outline of a section lists its headings. -/
theorem map_heading_sectionOutline (sectionIndex n : Nat) (blocks : List Block) :
    (sectionOutline sectionIndex n blocks).map OutlineEntry.heading =
      blocks.filterMap Block.heading? := by
  fun_induction sectionOutline sectionIndex n blocks with
  | case1 => rfl
  | case2 n level p rest ih =>
    rw [List.map_cons, ih]
    rfl
  | case3 n b rest hb ih =>
    have hnone : b.heading? = none := by
      cases b with
      | heading level p => exact (hb level p rfl).elim
      | _ => rfl
    rw [ih, List.filterMap_cons_none hnone]

/-- The outline of some sections lists their headings. -/
theorem map_heading_outlineFrom (n : Nat) (sections : List Section) :
    (outlineFrom n sections).map OutlineEntry.heading =
      (sections.flatMap (·.blocks)).filterMap Block.heading? := by
  induction sections generalizing n with
  | nil => rfl
  | cons s rest ih =>
    rw [outlineFrom, List.map_append, map_heading_sectionOutline, ih, List.flatMap_cons,
      List.filterMap_append]

/-- The headings of a styled document are those that the outline lists. -/
theorem headings_of_styled {doc : Document} {out : StyledDocument}
    (h : doc.styled styling = .ok out) :
    out.headings = doc.outline.map OutlineEntry.heading := by
  have hblocks := List.rel_flatMap (forall₂_sections h) fun _ _ => id
  rw [outline, map_heading_outlineFrom]
  exact filterMap_heading?_eq hblocks

end Document

/-- The level and the text of an entry. -/
def TocEntry.heading (e : TocEntry) : UInt8 × String := (e.level, e.text)

/-- A table of contents lists the entries of the outline that its request includes, each with its
level and text. -/
theorem TocRequest.entries_of_styled {around : Surroundings} {toc : TocRequest}
    {contents : StyledToc} (h : toc.styled styling outline around = .ok contents) :
    contents.entries.map TocEntry.heading =
      (outline.filter fun e => toc.includes e.level).map OutlineEntry.heading := by
  obtain ⟨_, _, h⟩ := bind_eq_ok_iff.mp h
  obtain ⟨entries, hentries, h⟩ := bind_eq_ok_iff.mp h
  cases h
  refine map_eq_map_of_mapM (fun e entry hentry => ?_) hentries
  obtain ⟨_, _, hentry⟩ := bind_eq_ok_iff.mp hentry
  obtain ⟨_, _, hentry⟩ := bind_eq_ok_iff.mp hentry
  cases hentry
  rfl

/-- A range that ends before it starts includes no level. -/
theorem TocRequest.includes_eq_false {toc : TocRequest} (h : toc.maxLevel < toc.minLevel)
    (level : UInt8) : toc.includes level = false := by
  have hnot : ¬(toc.minLevel ≤ level ∧ level ≤ toc.maxLevel) := by
    rintro ⟨hmin, hmax⟩
    exact absurd (UInt8.le_trans hmin hmax) (UInt8.not_le.mpr h)
  simpa only [TocRequest.includes, Bool.and_eq_false_iff, decide_eq_false_iff_not,
    Classical.not_and_iff_not_or_not] using hnot

/-- A styled block is a table of contents only if the block is a request for one. -/
theorem Block.Becomes.toc {b : Block} {contents : StyledToc}
    (h : b.Becomes styling outline (.toc contents)) :
    ∃ request, b = .toc request ∧
      ∃ around, request.styled styling outline around = .ok contents := by
  obtain ⟨around, h⟩ := h
  unfold Block.styled at h
  cases b with
  | toc request =>
    obtain ⟨_, hc, h⟩ := bind_eq_ok_iff.mp h
    cases h
    exact ⟨request, rfl, around, hc⟩
  | table t =>
    obtain ⟨_, _, h⟩ := bind_eq_ok_iff.mp h
    obtain ⟨_, _, h⟩ := bind_eq_ok_iff.mp h
    cases h
  | pageBreak => cases h
  | heading _ _ | paragraph _ | run _ =>
    obtain ⟨_, _, h⟩ := bind_eq_ok_iff.mp h
    cases h

namespace Document

/-- Where a document asks for a table of contents, the styled document has one. -/
theorem exists_contents_of_request {doc : Document} {out : StyledDocument}
    (h : doc.styled styling = .ok out) {pos : BlockPosition} {request : TocRequest}
    (hr : doc.block? pos = some (.toc request)) :
    ∃ contents, out.block? pos = some (.toc contents) := by
  have hrel := rel_block? h pos
  rw [hr] at hrel
  generalize out.block? pos = found at hrel
  cases hrel with
  | some hstyled =>
    obtain ⟨around, hstyled⟩ := hstyled
    obtain ⟨contents, _, hstyled⟩ := bind_eq_ok_iff.mp hstyled
    cases hstyled
    exact ⟨contents, rfl⟩

/-- The outline lists the headings that stand directly in a section, each once and in the order of
the document. When the document is styled, its headings are those of the outline, and a table of
contents at whatever position lists the part of the outline between the levels of its request. -/
theorem contents_follow_outline (doc : Document) :
    (∀ e, e ∈ doc.outline ↔ ∃ s p, doc.sections[e.sectionIndex]? = some s ∧
        s.blocks[e.blockIndex]? = some (.heading e.level p) ∧ e.text = p.plainText) ∧
      doc.outline.Pairwise OutlineEntry.Before ∧
      ∀ styling out, doc.styled styling = .ok out →
        out.headings = doc.outline.map OutlineEntry.heading ∧
        ∀ pos contents, out.block? pos = some (.toc contents) →
          ∃ request, doc.block? pos = some (.toc request) ∧
            contents.entries.map TocEntry.heading =
              (doc.outline.filter fun e =>
                request.minLevel ≤ e.level ∧ e.level ≤ request.maxLevel).map OutlineEntry.heading ∧
            (request.maxLevel < request.minLevel → contents.entries = []) := by
  refine ⟨fun e => mem_outline_iff, pairwise_outlineFrom 0 doc.sections, fun styling out h => ?_⟩
  refine ⟨headings_of_styled h, fun pos contents hc => ?_⟩
  have hrel := rel_block? h pos
  rw [hc] at hrel
  generalize hb : doc.block? pos = found at hrel
  cases hrel with
  | some hstyled =>
    obtain ⟨request, rfl, around, htoc⟩ := hstyled.toc
    have hentries := TocRequest.entries_of_styled htoc
    refine ⟨request, rfl, ?_, fun hempty => ?_⟩
    · simpa only [TocRequest.includes, Bool.decide_and] using hentries
    · have hnone : (doc.outline.filter fun e => request.includes e.level) = [] :=
        List.filter_eq_nil_iff.mpr fun e _ => by simp [request.includes_eq_false hempty]
      rw [hnone] at hentries
      exact List.map_eq_nil_iff.mp hentries

/-- A manual with a table of contents before its headings, one in a table inside a table, and one
for no level; a heading in a cell stands beside the outline, and the outline skips levels. -/
def manual : Document :=
  let inner : Table Block ColorRef :=
    { rows := [{ cells := [{ blocks := [.toc { minLevel := 3, maxLevel := 9 }] }] }] }
  let outer : Table Block ColorRef :=
    { rows := [{ cells := [{}, { blocks := [.heading 1 (.ofText "Aside"), .table inner] }] }] }
  { title := "Manual"
    sections := [
      ⟨.a4, [.toc {}, .heading 0 (.ofText "Use"), .table outer]⟩,
      ⟨.a4, [.pageBreak, .heading 3 (.ofText "Care"), .toc { minLevel := 2, maxLevel := 1 }]⟩] }

/-- The table of contents inside two tables of the manual lists the heading of a later section. -/
theorem contents_follow_outline_manual :
    manual.outline = [⟨0, "Use", 0, 1⟩, ⟨3, "Care", 1, 1⟩] ∧
      ∃ out, manual.styled ⟨Stylesheet.plainTheme, Stylesheet.letter⟩ = .ok out ∧
        out.headings = [(0, "Use"), (3, "Care")] ∧
        ∃ contents, out.block? ⟨0, 2, [⟨0, 1, 1⟩, ⟨0, 0, 0⟩]⟩ = some (.toc contents) ∧
          contents.entries.map TocEntry.heading = [(3, "Care")] := by
  have houtline : manual.outline = [⟨0, "Use", 0, 1⟩, ⟨3, "Care", 1, 1⟩] := by decide +kernel
  obtain ⟨out, hout⟩ : ∃ out, manual.styled ⟨Stylesheet.plainTheme, Stylesheet.letter⟩ = .ok out :=
    exists_eq_ok_of_isOk (by decide +kernel)
  obtain ⟨_, _, hstyled⟩ := manual.contents_follow_outline
  obtain ⟨hheadings, hcontents⟩ := hstyled _ out hout
  refine ⟨houtline, out, hout, by rw [hheadings, houtline]; rfl, ?_⟩
  obtain ⟨contents, hfound⟩ := exists_contents_of_request hout
    (show manual.block? ⟨0, 2, [⟨0, 1, 1⟩, ⟨0, 0, 0⟩]⟩ = some (.toc ⟨none, 3, 9, true⟩) from rfl)
  obtain ⟨request, hrequest, hentries, _⟩ := hcontents _ contents hfound
  cases hrequest
  refine ⟨contents, hfound, hentries.trans ?_⟩
  rw [houtline]
  decide

end Document

end Folio
