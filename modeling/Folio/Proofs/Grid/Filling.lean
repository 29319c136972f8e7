import Folio.Proofs.Grid.Tiling

/-!
# Grids filled row by row

The first items of a grid lie in different cells, from left to right and from top to bottom. They
fill every row that they take up but perhaps the last. Items are laid out in their order, each in
the cell of its position, with one left edge for each column and one upper edge for each row; where
an item lies does not depend on those behind it.
-/

namespace Folio.GridSpec

/-- A cell comes before another in the order of reading. -/
def ReadBefore (a b : Nat × Nat) : Prop := a.2 < b.2 ∨ a.2 = b.2 ∧ a.1 < b.1

/-- Cells, given by column and row, that some items take up when they fill rows of equally many
columns. -/
structure FilledBy (columns count rows : Nat) (cells : List (Nat × Nat)) : Prop where
  /-- There are as many cells as items. -/
  length : cells.length = count
  nodup : cells.Nodup
  ordered : cells.Pairwise ReadBefore
  mem_iff : ∀ col row, (col, row) ∈ cells ↔ col < columns ∧ row * columns + col < count
  occupied_iff : ∀ row, (∃ col, (col, row) ∈ cells) ↔ row < rows
  full : ∀ row, row + 1 < rows → ∀ col < columns, (col, row) ∈ cells

section

variable {columns : Nat}

/-- A later position lies in a later cell. -/
theorem readBefore_of_lt {i j : Nat} (h : i < j) :
    ReadBefore (i % columns, i / columns) (j % columns, j / columns) := by
  rcases (Nat.div_le_div_right h.le : i / columns ≤ j / columns).lt_or_eq with hrow | hrow
  · exact .inl hrow
  · refine .inr ⟨hrow, ?_⟩
    have hi := Nat.div_add_mod i columns
    have hj := Nat.div_add_mod j columns
    dsimp only at hrow ⊢
    rw [hrow] at hi
    omega

variable (hcolumns : 0 < columns)

include hcolumns

/-- A cell is that of one position. -/
theorem cell_eq_iff {i col row : Nat} :
    (i % columns, i / columns) = (col, row) ↔ col < columns ∧ i = row * columns + col := by
  rw [Prod.mk.injEq]
  constructor
  · rintro ⟨rfl, rfl⟩
    exact ⟨Nat.mod_lt _ hcolumns, (Nat.div_add_mod' i columns).symm⟩
  · rintro ⟨hcol, rfl⟩
    rw [Nat.mul_comm, Nat.mul_add_mod, Nat.mod_eq_of_lt hcol, Nat.mul_add_div hcolumns,
      Nat.div_eq_of_lt hcol, Nat.add_zero]
    exact ⟨rfl, rfl⟩

/-- Items take up the rows that begin before their end. -/
theorem lt_rows_iff {count row : Nat} :
    row < (count + columns - 1) / columns ↔ row * columns < count := by
  rw [Nat.lt_iff_add_one_le, Nat.le_div_iff_mul_le hcolumns, Nat.succ_mul]
  omega

/-- Positions counted row by row fill the rows that they take up. -/
theorem filledBy (count : Nat) :
    FilledBy columns count ((count + columns - 1) / columns)
      ((List.range count).map fun i => (i % columns, i / columns)) := by
  have hordered : ((List.range count).map fun i => (i % columns, i / columns)).Pairwise
      ReadBefore :=
    List.pairwise_map.mpr (List.pairwise_lt_range.imp readBefore_of_lt)
  have hmem (col row : Nat) :
      (col, row) ∈ (List.range count).map (fun i => (i % columns, i / columns)) ↔
        col < columns ∧ row * columns + col < count := by
    rw [List.mem_map]
    constructor
    · rintro ⟨i, hi, hcell⟩
      obtain ⟨hcol, rfl⟩ := (cell_eq_iff hcolumns).mp hcell
      exact ⟨hcol, List.mem_range.mp hi⟩
    · rintro ⟨hcol, hcount⟩
      exact ⟨_, List.mem_range.mpr hcount, (cell_eq_iff hcolumns).mpr ⟨hcol, rfl⟩⟩
  exact {
    length := by rw [List.length_map, List.length_range]
    nodup := hordered.imp fun {a b} hab heq => by
      rw [heq] at hab
      rcases hab with hrow | ⟨_, hcol⟩
      · exact lt_irrefl _ hrow
      · exact lt_irrefl _ hcol
    ordered := hordered
    mem_iff := hmem
    occupied_iff := fun row => by
      simp only [hmem]
      rw [lt_rows_iff hcolumns]
      constructor
      · rintro ⟨col, _, hcount⟩
        exact (Nat.le_add_right _ _).trans_lt hcount
      · intro hrow
        exact ⟨0, hcolumns, hrow⟩
    full := fun row hrow col hcol => by
      rw [lt_rows_iff hcolumns, Nat.succ_mul] at hrow
      exact (hmem col row).mpr ⟨hcol, by omega⟩ }

end

/-- Two positions lie in one column. -/
def SameColumn {L : Type} (spec : GridSpec L) (i j : Nat) : Prop :=
  ∃ col upper lower, spec.cell i = .ok (col, upper) ∧ spec.cell j = .ok (col, lower)

/-- Items lie in the cells of a grid, each in that of its position. -/
structure LaysOut {α : Type} (spec : GridSpec Float32) (items : List α)
    (placed : List (Placed α)) : Prop where
  /-- Every item has its place, in the order of the items. -/
  order : placed.map (·.item) = items
  size : ∀ p ∈ placed, p.frame.w = spec.cellWidth ∧ p.frame.h = spec.cellHeight
  /-- A place is that of its position, however many items there are. -/
  corner : ∀ i p, placed[i]? = some p → spec.anchor i = .ok (p.frame.x, p.frame.y)
  column : ∀ i j p q, placed[i]? = some p → placed[j]? = some q → spec.SameColumn i j →
    p.frame.x = q.frame.x
  row : ∀ i j p q, placed[i]? = some p → placed[j]? = some q → spec.SameRow i j →
    p.frame.y = q.frame.y
  /-- The first items are laid out alike without the others. -/
  front : ∀ count, spec.layout (items.take count) = .ok (placed.take count)

section

variable {spec : GridSpec Float32}

/-- The edges of a place are those of the column and the row of its cell. -/
theorem frameAt_of_cell {i col row : Nat} (hcell : spec.cell i = .ok (col, row)) :
    (spec.frameAt i).x = start spec.originX spec.cellWidth spec.colGap col ∧
      (spec.frameAt i).y = start spec.originY spec.cellHeight spec.rowGap row := by
  unfold cell at hcell
  split at hcell
  · cases hcell
  · cases hcell
    exact ⟨rfl, rfl⟩

/-- Cells of one column have the same left edge. -/
theorem frameAt_x_of_sameColumn {i j : Nat} (hij : spec.SameColumn i j) :
    (spec.frameAt i).x = (spec.frameAt j).x := by
  obtain ⟨col, upper, lower, hi, hj⟩ := hij
  rw [(frameAt_of_cell hi).1, (frameAt_of_cell hj).1]

/-- Cells of one row have the same upper edge. -/
theorem frameAt_y_of_sameRow {i j : Nat} (hij : spec.SameRow i j) :
    (spec.frameAt i).y = (spec.frameAt j).y := by
  obtain ⟨left, right, row, hi, hj⟩ := hij
  rw [(frameAt_of_cell hi).2, (frameAt_of_cell hj).2]

/-- The entries at the front keep their positions. -/
theorem zipIdx_take {α : Type} (l : List α) (count : Nat) :
    (l.take count).zipIdx = l.zipIdx.take count := by
  refine List.ext_getElem? fun i => ?_
  rw [List.getElem?_zipIdx, List.getElem?_take, List.getElem?_take, List.getElem?_zipIdx]
  split <;> rfl

/-- What lies at a position has the frame of the position. -/
theorem frame_of_getElem?_placed {α : Type} {items : List α} {i : Nat} {p : Placed α}
    (h : (items.zipIdx.map fun entry => Placed.mk entry.1 (spec.frameAt entry.2))[i]? = some p) :
    p.frame = spec.frameAt i := by
  rw [List.getElem?_map, List.getElem?_zipIdx] at h
  obtain ⟨entry, hentry, rfl⟩ := Option.map_eq_some_iff.mp h
  obtain ⟨a, _, rfl⟩ := Option.map_eq_some_iff.mp hentry
  dsimp only
  rw [Nat.zero_add]

/-- The layout of a valid grid puts each item in the cell of its position. -/
theorem laysOut_of_validate {α : Type} (h : spec.validate = .ok ()) (items : List α) :
    spec.LaysOut items (items.zipIdx.map fun entry => ⟨entry.1, spec.frameAt entry.2⟩) where
  order := by
    rw [List.map_map]
    exact List.zipIdx_map_fst 0 items
  size := by
    intro p hp
    obtain ⟨entry, _, rfl⟩ := List.mem_map.mp hp
    exact ⟨rfl, rfl⟩
  corner := fun i p hp => by
    rw [frame_of_getElem?_placed hp, anchor_eq_ok (columns_ne_zero_of_validate h)]
  column := fun i j p q hp hq hij => by
    rw [frame_of_getElem?_placed hp, frame_of_getElem?_placed hq]
    exact frameAt_x_of_sameColumn hij
  row := fun i j p q hp hq hij => by
    rw [frame_of_getElem?_placed hp, frame_of_getElem?_placed hq]
    exact frameAt_y_of_sameRow hij
  front := fun count => by
    rw [layout_eq_ok_of_validate h, ← List.map_take, zipIdx_take]

/-- The cells of a grid with columns are filled row by row, all rows but perhaps the last one to
their end. When its measures are in range, items are laid out in their order, each in the cell of its
position whatever items follow, and places agree in their left edge within a column and in their
upper edge within a row. -/
theorem layout_row_by_row (hcolumns : 0 < spec.columns) :
    (∀ count, ∃ cells rows, (List.range count).mapM spec.cell = .ok cells ∧
      spec.rowsFor count = .ok rows ∧ FilledBy spec.columns count rows cells) ∧
      ∀ {α : Type} (items : List α), spec.validate = .ok () → ∃ placed,
        spec.layout items = .ok placed ∧ spec.LaysOut items placed := by
  refine ⟨fun count => ?_, fun items hvalid =>
    ⟨_, layout_eq_ok_of_validate hvalid items, laysOut_of_validate hvalid items⟩⟩
  refine ⟨_, _, ?_, if_neg hcolumns.ne', filledBy hcolumns count⟩
  rw [mapM_congr_of_mem fun i _ => cell_eq_ok hcolumns.ne' i]
  exact List.mapM_pure

end

/-- Three columns with gaps between the cells. -/
def threeColumns : GridSpec Float32 := ⟨3, 2.4, 1, 1, 1.7, 0.4, 0.6⟩

/-- Five items fill the first of two rows, and the first three are laid out alike without the
others. -/
theorem layout_row_by_row_threeColumns :
    0 < threeColumns.columns ∧ threeColumns.validate = .ok () ∧
      FilledBy 3 5 2 [(0, 0), (1, 0), (2, 0), (0, 1), (1, 1)] ∧
      ∃ placed, threeColumns.layout ["Ann", "Ben", "Cat", "Dan", "Eve"] = .ok placed ∧
        placed.length = 5 ∧
        threeColumns.layout ["Ann", "Ben", "Cat"] = .ok (placed.take 3) := by
  have hcolumns : 0 < threeColumns.columns := by decide
  have hvalid : threeColumns.validate = .ok () := by decide +kernel
  obtain ⟨hcells, hlayout⟩ := layout_row_by_row hcolumns
  obtain ⟨cells, rows, hmapped, hrows, hfilled⟩ := hcells 5
  obtain ⟨placed, hplaced, hlaid⟩ := hlayout ["Ann", "Ben", "Cat", "Dan", "Eve"] hvalid
  have hfive : (List.range 5).mapM threeColumns.cell =
      .ok [(0, 0), (1, 0), (2, 0), (0, 1), (1, 1)] := by decide
  have htwo : threeColumns.rowsFor 5 = .ok 2 := by decide
  cases hmapped.symm.trans hfive
  cases hrows.symm.trans htwo
  refine ⟨hcolumns, hvalid, hfilled, placed, hplaced, ?_, hlaid.front 3⟩
  exact (List.length_map _).symm.trans (congrArg List.length hlaid.order)

end Folio.GridSpec
