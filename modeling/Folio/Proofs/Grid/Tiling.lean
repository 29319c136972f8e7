import Folio.Proofs.Deck.Neighbours
import Folio.Proofs.Number.Exact

/-!
# Tilings

The frames of a grid have no inner point in common and lie inside the rectangle that the extent of
the grid spans from its origin; one of them reaches the right edge of it and one the bottom. This
holds of exact lengths, so it holds of binary32 numbers as long as no step rounds.
-/

namespace Folio

namespace Frame

/-- The points inside a frame, without its edges. -/
def interior (f : Frame ℚ) : Set (ℚ × ℚ) := Set.Ioo f.x (f.x + f.w) ×ˢ Set.Ioo f.y (f.y + f.h)

/-- A frame lies inside bounds, whose edges it may touch. -/
structure Within (f bounds : Frame ℚ) : Prop where
  left : bounds.x ≤ f.x
  right : f.x + f.w ≤ bounds.x + bounds.w
  top : bounds.y ≤ f.y
  bottom : f.y + f.h ≤ bounds.y + bounds.h

/-- Frames share no inner point, and bounds enclose them that cannot be drawn in at the right or at
the bottom. -/
structure Encloses (bounds : Frame ℚ) (frames : List (Frame ℚ)) : Prop where
  disjoint : frames.Pairwise fun f g => Disjoint f.interior g.interior
  within : ∀ f ∈ frames, f.Within bounds
  right : ∃ f ∈ frames, f.x + f.w = bounds.x + bounds.w
  bottom : ∃ f ∈ frames, f.y + f.h = bounds.y + bounds.h

/-- Frames side by side share no inner point. -/
theorem disjoint_interior_of_beside {f g : Frame ℚ} (h : f.x + f.w ≤ g.x) :
    Disjoint f.interior g.interior := by
  refine Set.disjoint_left.mpr fun p hf hg => ?_
  have hbefore : p.1 < f.x + f.w := hf.1.2
  have hafter : g.x < p.1 := hg.1.1
  exact absurd (hafter.trans hbefore) h.not_gt

/-- Frames below one another share no inner point. -/
theorem disjoint_interior_of_above {f g : Frame ℚ} (h : f.y + f.h ≤ g.y) :
    Disjoint f.interior g.interior := by
  refine Set.disjoint_left.mpr fun p hf hg => ?_
  have hbefore : p.2 < f.y + f.h := hf.2.2
  have hafter : g.y < p.2 := hg.2.1
  exact absurd (hafter.trans hbefore) h.not_gt

/-- The frame of exact lengths that a frame of numbers is. -/
def rational? (f : Box) : Option (Frame ℚ) := do
  return ⟨← Number.rational? f.x, ← Number.rational? f.y, ← Number.rational? f.w,
    ← Number.rational? f.h⟩

end Frame

namespace GridSpec

section ClosedForms

variable {L : Type} [Length L]

/-- Where a cell begins in a line of cells with gaps between them. -/
def start (origin cell gap : L) (k : Nat) : L := origin + Length.ofCount k * (cell + gap)

/-- The frame of a position, in a grid with columns. -/
def frameAt (spec : GridSpec L) (i : Nat) : Frame L where
  x := start spec.originX spec.cellWidth spec.colGap (i % spec.columns)
  y := start spec.originY spec.cellHeight spec.rowGap (i / spec.columns)
  w := spec.cellWidth
  h := spec.cellHeight

/-- Width and height that some items take up, in a grid with columns. -/
def size (spec : GridSpec L) (count : Nat) : L × L :=
  (span (min count spec.columns) spec.cellWidth spec.colGap,
    span ((count + spec.columns - 1) / spec.columns) spec.cellHeight spec.rowGap)

variable {spec : GridSpec L} (h : spec.columns ≠ 0)

include h

/-- Where there are columns, every cell has an anchor. -/
theorem anchor_eq_ok (i : Nat) : spec.anchor i = .ok ((spec.frameAt i).x, (spec.frameAt i).y) := by
  unfold anchor
  rw [cell_eq_ok h]
  rfl

/-- Where there are columns, every cell has a frame. -/
theorem frame_eq_ok (i : Nat) : spec.frame i = .ok (spec.frameAt i) := by
  unfold frame
  rw [anchor_eq_ok h]
  rfl

/-- Where there are cells, they have an extent. -/
theorem extent_eq_ok {count : Nat} (hcount : count ≠ 0) :
    spec.extent count = .ok (spec.size count) := by
  unfold extent rowsFor
  rw [if_neg hcount, if_neg h]
  rfl

end ClosedForms

/-- Items are put at the frames of their positions. -/
theorem place_eq_ok {α : Type} {spec : GridSpec Float32} (h : spec.columns ≠ 0) (i : Nat)
    (items : List α) :
    spec.place i items =
      .ok ((items.zipIdx i).map fun entry => ⟨entry.1, spec.frameAt entry.2⟩) := by
  induction items generalizing i with
  | nil => rfl
  | cons a items ih =>
    unfold place
    rw [frame_eq_ok h, ih]
    rfl

/-- The layout of a valid grid gives each item the frame of its position. -/
theorem layout_eq_ok_of_validate {α : Type} {spec : GridSpec Float32}
    (h : spec.validate = .ok ()) (items : List α) :
    spec.layout items = .ok (items.zipIdx.map fun entry => ⟨entry.1, spec.frameAt entry.2⟩) :=
  bind_eq_ok_iff.mpr ⟨(), h, place_eq_ok (columns_ne_zero_of_validate h) 0 items⟩

/-- The frames of a layout are those of the positions of its items. -/
theorem map_frame_of_layout {α : Type} {spec : GridSpec Float32} {items : List α}
    {placed : List (Placed α)} (h : spec.layout items = .ok placed) :
    placed.map (·.frame) = (List.range items.length).map spec.frameAt := by
  obtain ⟨_, hvalid, _⟩ := bind_eq_ok_iff.mp h
  rw [layout_eq_ok_of_validate hvalid] at h
  cases h
  have hpositions : items.zipIdx.map Prod.snd = List.range items.length := by
    rw [List.zipIdx_map_snd, List.range_eq_range']
  rw [← hpositions, List.map_map, List.map_map]
  rfl

section Lines

variable {origin cell gap : ℚ}

/-- A line of cells ends where its last cell does. -/
theorem start_add_cell (k : Nat) :
    start origin cell gap k + cell = origin + span (k + 1) cell gap := by
  change origin + (k : ℚ) * (cell + gap) + cell =
    origin + (((k + 1 : Nat) : ℚ) * cell + (((k + 1 : Nat) : ℚ) - ((1 : Nat) : ℚ)) * gap)
  push_cast
  ring

variable (hcell : 0 ≤ cell) (hgap : 0 ≤ gap)

include hcell hgap

/-- A later cell of a line does not start before an earlier one. -/
theorem start_mono {j k : Nat} (h : j ≤ k) : start origin cell gap j ≤ start origin cell gap k := by
  change origin + (j : ℚ) * (cell + gap) ≤ origin + (k : ℚ) * (cell + gap)
  gcongr

/-- No cell of a line starts before the origin. -/
theorem origin_le_start (k : Nat) : origin ≤ start origin cell gap k := by
  change origin ≤ origin + (k : ℚ) * (cell + gap)
  have hoffset : 0 ≤ (k : ℚ) * (cell + gap) := by positivity
  linarith

/-- A cell ends before the next ones begin. -/
theorem start_add_cell_le_start {j k : Nat} (h : j < k) :
    start origin cell gap j + cell ≤ start origin cell gap k := by
  have hnext : start origin cell gap (j + 1) = start origin cell gap j + (cell + gap) := by
    change origin + ((j + 1 : Nat) : ℚ) * (cell + gap) =
      origin + (j : ℚ) * (cell + gap) + (cell + gap)
    push_cast
    ring
  have hmono : start origin cell gap (j + 1) ≤ start origin cell gap k := start_mono hcell hgap h
  rw [hnext] at hmono
  linarith

/-- A cell of a line ends before the line does. -/
theorem start_add_cell_le {k count : Nat} (h : k < count) :
    start origin cell gap k + cell ≤ origin + span count cell gap := by
  obtain ⟨last, rfl⟩ := Nat.exists_eq_succ_of_ne_zero (Nat.ne_zero_of_lt h)
  rw [Nat.succ_eq_add_one, ← start_add_cell]
  have hmono : start origin cell gap k ≤ start origin cell gap last :=
    start_mono hcell hgap (Nat.le_of_lt_succ h)
  linarith

end Lines

/-- What checks leave of a grid: it has columns, and sizes and gaps that are not negative. -/
structure Valid (grid : GridSpec ℚ) : Prop where
  columns : grid.columns ≠ 0
  cellWidth : 0 ≤ grid.cellWidth
  cellHeight : 0 ≤ grid.cellHeight
  colGap : 0 ≤ grid.colGap
  rowGap : 0 ≤ grid.rowGap

namespace Valid

variable {grid : GridSpec ℚ} (h : grid.Valid)

include h

/-- Cells of different rows do not overlap. -/
theorem disjoint_of_row_lt {i j : Nat} (hrow : i / grid.columns < j / grid.columns) :
    Disjoint (grid.frameAt i).interior (grid.frameAt j).interior :=
  Frame.disjoint_interior_of_above (start_add_cell_le_start h.cellHeight h.rowGap hrow)

/-- Cells of different columns do not overlap. -/
theorem disjoint_of_col_lt {i j : Nat} (hcol : i % grid.columns < j % grid.columns) :
    Disjoint (grid.frameAt i).interior (grid.frameAt j).interior :=
  Frame.disjoint_interior_of_beside (start_add_cell_le_start h.cellWidth h.colGap hcol)

/-- Different positions lie in different rows or in different columns. -/
theorem disjoint_interior {i j : Nat} (hij : i ≠ j) :
    Disjoint (grid.frameAt i).interior (grid.frameAt j).interior := by
  rcases lt_trichotomy (i / grid.columns) (j / grid.columns) with hrow | hrow | hrow
  · exact h.disjoint_of_row_lt hrow
  · rcases lt_trichotomy (i % grid.columns) (j % grid.columns) with hcol | hcol | hcol
    · exact h.disjoint_of_col_lt hcol
    · -- in the same row and column there is one position only
      have hi := Nat.div_add_mod i grid.columns
      rw [hrow, hcol, Nat.div_add_mod] at hi
      exact absurd hi.symm hij
    · exact (h.disjoint_of_col_lt hcol).symm
  · exact (h.disjoint_of_row_lt hrow).symm

/-- The last item lies in the last of the rows. -/
theorem rows_succ (last : Nat) :
    (last + 1 + grid.columns - 1) / grid.columns = last / grid.columns + 1 := by
  rw [Nat.add_right_comm, Nat.add_sub_cancel, Nat.add_div_right _ (Nat.pos_of_ne_zero h.columns)]

/-- Every cell lies within the extent of the cells. -/
theorem within {i count : Nat} (hi : i < count) :
    (grid.frameAt i).Within
      ⟨grid.originX, grid.originY, (grid.size count).1, (grid.size count).2⟩ := by
  obtain ⟨last, rfl⟩ := Nat.exists_eq_succ_of_ne_zero (Nat.ne_zero_of_lt hi)
  have hcol : i % grid.columns < min (last + 1) grid.columns :=
    lt_min ((Nat.mod_le _ _).trans_lt hi) (Nat.mod_lt _ (Nat.pos_of_ne_zero h.columns))
  have hrow : i / grid.columns < (last + 1 + grid.columns - 1) / grid.columns := by
    rw [h.rows_succ]
    exact Nat.lt_succ_of_le (Nat.div_le_div_right (Nat.le_of_lt_succ hi))
  exact {
    left := origin_le_start h.cellWidth h.colGap _
    right := start_add_cell_le h.cellWidth h.colGap hcol
    top := origin_le_start h.cellHeight h.rowGap _
    bottom := start_add_cell_le h.cellHeight h.rowGap hrow }

/-- The last item of the first row reaches the right edge. -/
theorem exists_right (last : Nat) : ∃ i < last + 1,
    (grid.frameAt i).x + (grid.frameAt i).w = grid.originX + (grid.size (last + 1)).1 := by
  have hpos := Nat.pos_of_ne_zero h.columns
  refine ⟨min last (grid.columns - 1), by omega, ?_⟩
  -- fewer items than columns end the extent where they end themselves
  have hcount : min (last + 1) grid.columns = min last (grid.columns - 1) + 1 := by omega
  have hcol : min last (grid.columns - 1) % grid.columns = min last (grid.columns - 1) :=
    Nat.mod_eq_of_lt (by omega)
  unfold size frameAt
  rw [hcount, hcol, start_add_cell]

/-- The last item reaches the bottom edge. -/
theorem bottom (last : Nat) :
    (grid.frameAt last).y + (grid.frameAt last).h = grid.originY + (grid.size (last + 1)).2 := by
  unfold size frameAt
  rw [h.rows_succ, start_add_cell]

/-- The extent encloses the cells, and cells reach its right and its lower edge. -/
theorem encloses {count : Nat} (hcount : count ≠ 0) :
    Frame.Encloses ⟨grid.originX, grid.originY, (grid.size count).1, (grid.size count).2⟩
      ((List.range count).map grid.frameAt) where
  disjoint := List.pairwise_map.mpr
    (List.pairwise_lt_range.imp fun hij => h.disjoint_interior hij.ne)
  within := by
    intro f hf
    obtain ⟨i, hi, rfl⟩ := List.mem_map.mp hf
    exact h.within (List.mem_range.mp hi)
  right := by
    obtain ⟨last, rfl⟩ := Nat.exists_eq_succ_of_ne_zero hcount
    obtain ⟨i, hi, hright⟩ := h.exists_right last
    exact ⟨_, List.mem_map_of_mem (List.mem_range.mpr hi), hright⟩
  bottom := by
    obtain ⟨last, rfl⟩ := Nat.exists_eq_succ_of_ne_zero hcount
    exact ⟨_, List.mem_map_of_mem (List.mem_range.mpr last.lt_succ_self), h.bottom last⟩

end Valid

section Readings

variable {L M : Type}

/-- A grid with each of its measures changed. -/
def map (f : L → M) (spec : GridSpec L) : GridSpec M where
  columns := spec.columns
  cellWidth := f spec.cellWidth
  cellHeight := f spec.cellHeight
  originX := f spec.originX
  originY := f spec.originY
  colGap := f spec.colGap
  rowGap := f spec.rowGap

/-- Two grids have equally many columns and related measures. -/
structure Related (R : L → M → Prop) (spec : GridSpec L) (spec' : GridSpec M) : Prop where
  columns : spec.columns = spec'.columns
  cellWidth : R spec.cellWidth spec'.cellWidth
  cellHeight : R spec.cellHeight spec'.cellHeight
  originX : R spec.originX spec'.originX
  originY : R spec.originY spec'.originY
  colGap : R spec.colGap spec'.colGap
  rowGap : R spec.rowGap spec'.rowGap

variable [Length L] [Length M] {R : L → M → Prop} (hR : Length.Respects R)

include hR

/-- Related measures give related starts of cells. -/
theorem related_start {origin cell gap : L} {origin' cell' gap' : M} (horigin : R origin origin')
    (hcell : R cell cell') (hgap : R gap gap') (k : Nat) :
    R (start origin cell gap k) (start origin' cell' gap' k) :=
  hR.add horigin (hR.mul (hR.ofCount k) (hR.add hcell hgap))

/-- Related measures give related extents of lines. -/
theorem related_span {cell gap : L} {cell' gap' : M} (hcell : R cell cell') (hgap : R gap gap')
    (count : Nat) : R (span count cell gap) (span count cell' gap') :=
  hR.add (hR.mul (hR.ofCount count) hcell)
    (hR.mul (hR.sub (hR.ofCount count) (hR.ofCount 1)) hgap)

variable {spec : GridSpec L} {spec' : GridSpec M} (h : Related R spec spec')

include h

/-- Positions are calculated alike in related grids. -/
theorem Related.frameAt (i : Nat) :
    R (spec.frameAt i).x (spec'.frameAt i).x ∧ R (spec.frameAt i).y (spec'.frameAt i).y := by
  unfold GridSpec.frameAt
  rw [h.columns]
  exact ⟨related_start hR h.originX h.cellWidth h.colGap _,
    related_start hR h.originY h.cellHeight h.rowGap _⟩

/-- Extents are calculated alike in related grids. -/
theorem Related.size (count : Nat) :
    R (spec.size count).1 (spec'.size count).1 ∧ R (spec.size count).2 (spec'.size count).2 := by
  unfold GridSpec.size
  rw [h.columns]
  exact ⟨related_span hR h.cellWidth h.colGap _, related_span hR h.cellHeight h.rowGap _⟩

end Readings

/-- The grid of exact lengths that a grid of numbers is. -/
def rational? (spec : GridSpec Float32) : Option (GridSpec ℚ) := do
  return {
    columns := spec.columns
    cellWidth := ← Number.rational? spec.cellWidth
    cellHeight := ← Number.rational? spec.cellHeight
    originX := ← Number.rational? spec.originX
    originY := ← Number.rational? spec.originY
    colGap := ← Number.rational? spec.colGap
    rowGap := ← Number.rational? spec.rowGap }

/-- Two lengths that have been calculated, and none of them by a step that rounds. -/
def bothUnrounded : Except BuildError (Traced × Traced) → Bool
  | .ok (a, b) => a.unrounded && b.unrounded
  | .error _ => false

/-- Whether no step rounds on the way to the places of some items and to their extent. -/
def unrounded (spec : GridSpec Float32) (count : Nat) : Bool :=
  ((List.range count).all fun i => bothUnrounded ((spec.map Traced.ofNumber).anchor i)) &&
    bothUnrounded ((spec.map Traced.ofNumber).extent count)

variable {spec : GridSpec Float32} {grid : GridSpec ℚ}

/-- The measures of a valid grid stand for rational numbers. -/
theorem exists_rational?_of_validate (h : spec.validate = .ok ()) :
    ∃ grid, spec.rational? = some grid := by
  have hrange := validate_eq_ok_iff.mp h
  obtain ⟨width, hw⟩ := Number.exists_rational?_eq_some hrange.cellWidth.1
  obtain ⟨height, hh⟩ := Number.exists_rational?_eq_some hrange.cellHeight.1
  obtain ⟨col, hcol⟩ := Number.exists_rational?_eq_some hrange.colGap.1
  obtain ⟨row, hrow⟩ := Number.exists_rational?_eq_some hrange.rowGap.1
  obtain ⟨x, hx⟩ := Number.exists_rational?_eq_some hrange.originX
  obtain ⟨y, hy⟩ := Number.exists_rational?_eq_some hrange.originY
  refine ⟨⟨spec.columns, width, height, x, y, col, row⟩, ?_⟩
  simp only [rational?, hw, hh, hx, hy, hcol, hrow]
  rfl

/-- The rational numbers of a grid are those that its measures stand for. -/
theorem related_of_rational? (h : spec.rational? = some grid) :
    Related (fun x q => Number.rational? x = some q) spec grid := by
  simp only [rational?, bind, pure, Option.bind_eq_some_iff] at h
  obtain ⟨width, hw, height, hh, x, hx, y, hy, col, hcol, row, hrow, h⟩ := h
  cases h
  exact ⟨rfl, hw, hh, hx, hy, hcol, hrow⟩

/-- The rational numbers of a valid grid are in range. -/
theorem valid_of_validate (h : spec.validate = .ok ()) (hgrid : spec.rational? = some grid) :
    grid.Valid := by
  have hrelated := related_of_rational? hgrid
  have hrange := validate_eq_ok_iff.mp h
  exact {
    columns := hrelated.columns ▸ hrange.columns.ne'
    cellWidth := Number.nonneg_of_rational? hrange.cellWidth.2 hrelated.cellWidth
    cellHeight := Number.nonneg_of_rational? hrange.cellHeight.2 hrelated.cellHeight
    colGap := Number.nonneg_of_rational? hrange.colGap.2 hrelated.colGap
    rowGap := Number.nonneg_of_rational? hrange.rowGap.2 hrelated.rowGap }

/-- Tracing what is rounded changes no measure. -/
theorem related_number (spec : GridSpec Float32) :
    Related (fun (t : Traced) x => t.number = x) (spec.map Traced.ofNumber) spec :=
  ⟨rfl, rfl, rfl, rfl, rfl, rfl, rfl⟩

section Unrounded

variable (hgrid : spec.rational? = some grid)

include hgrid

/-- Measures that are not calculated have not been rounded. -/
theorem related_stands : Related Traced.Stands (spec.map Traced.ofNumber) grid := by
  have h := related_of_rational? hgrid
  exact ⟨h.columns, fun _ => h.cellWidth, fun _ => h.cellHeight, fun _ => h.originX,
    fun _ => h.originY, fun _ => h.colGap, fun _ => h.rowGap⟩

variable (hcolumns : spec.columns ≠ 0)

include hcolumns

/-- A place that is calculated without rounding is the exact one. -/
theorem rational?_frameAt {i : Nat}
    (h : bothUnrounded ((spec.map Traced.ofNumber).anchor i) = true) :
    (spec.frameAt i).rational? = some (grid.frameAt i) := by
  rw [@anchor_eq_ok _ _ (spec.map Traced.ofNumber) hcolumns] at h
  obtain ⟨hx, hy⟩ := Bool.and_eq_true_iff.mp h
  -- one traced calculation, read once as that of the numbers and once as the exact one
  obtain ⟨hnumberX, hnumberY⟩ := (related_number spec).frameAt Traced.respects_number i
  obtain ⟨hstandsX, hstandsY⟩ := (related_stands hgrid).frameAt Traced.respects_stands i
  have hexactX := hstandsX hx
  have hexactY := hstandsY hy
  rw [hnumberX] at hexactX
  rw [hnumberY] at hexactY
  have hsizes := related_of_rational? hgrid
  have hexactW : Number.rational? (spec.frameAt i).w = some (grid.frameAt i).w := hsizes.cellWidth
  have hexactH : Number.rational? (spec.frameAt i).h = some (grid.frameAt i).h := hsizes.cellHeight
  simp only [Frame.rational?, hexactX, hexactY, hexactW, hexactH]
  rfl

/-- An extent that is calculated without rounding is the exact one. -/
theorem rational?_size {count : Nat} (hcount : count ≠ 0)
    (h : bothUnrounded ((spec.map Traced.ofNumber).extent count) = true) :
    Number.rational? (spec.size count).1 = some (grid.size count).1 ∧
      Number.rational? (spec.size count).2 = some (grid.size count).2 := by
  rw [@extent_eq_ok _ _ (spec.map Traced.ofNumber) hcolumns _ hcount] at h
  obtain ⟨hw, hh⟩ := Bool.and_eq_true_iff.mp h
  obtain ⟨hnumberW, hnumberH⟩ := (related_number spec).size Traced.respects_number count
  obtain ⟨hstandsW, hstandsH⟩ := (related_stands hgrid).size Traced.respects_stands count
  rw [← hnumberW, ← hnumberH]
  exact ⟨hstandsW hw, hstandsH hh⟩

end Unrounded

/-- Of a grid that passes its checks the frames of items have, as exact lengths, no inner point in
common, and lie inside the rectangle that the extent spans from the origin, which some frame reaches
at the right and some frame at the bottom. Where no step rounds, these are the frames that items are
laid out in, and the extent that is calculated. -/
theorem layout_tiles {α : Type} {spec : GridSpec Float32} {items : List α}
    (hvalid : spec.validate = .ok ()) (hitems : items ≠ []) :
    ∃ grid frames w h, spec.rational? = some grid ∧
      (List.range items.length).mapM grid.frame = .ok frames ∧
      grid.extent items.length = .ok (w, h) ∧
      Frame.Encloses ⟨grid.originX, grid.originY, w, h⟩ frames ∧
      (spec.unrounded items.length = true → ∃ placed w' h',
        spec.layout items = .ok placed ∧ spec.extent items.length = .ok (w', h') ∧
        placed.map (·.frame.rational?) = frames.map some ∧
        Number.rational? w' = some w ∧ Number.rational? h' = some h) := by
  have hcolumns := columns_ne_zero_of_validate hvalid
  have hcount : items.length ≠ 0 := fun hzero => hitems (List.length_eq_zero_iff.mp hzero)
  obtain ⟨grid, hgrid⟩ := exists_rational?_of_validate hvalid
  have hproper := valid_of_validate hvalid hgrid
  have hframes : (List.range items.length).mapM grid.frame =
      .ok ((List.range items.length).map grid.frameAt) := by
    rw [mapM_congr_of_mem fun i _ => frame_eq_ok hproper.columns i]
    exact List.mapM_pure
  refine ⟨grid, _, _, _, hgrid, hframes, extent_eq_ok hproper.columns hcount,
    hproper.encloses hcount, fun hunrounded => ?_⟩
  obtain ⟨hplaces, hextent⟩ := Bool.and_eq_true_iff.mp hunrounded
  obtain ⟨hw, hh⟩ := rational?_size hgrid hcolumns hcount hextent
  obtain ⟨placed, hplaced, _⟩ := exists_place_eq_ok hcolumns 0 items
  have hlayout : spec.layout items = .ok placed := bind_eq_ok_iff.mpr ⟨(), hvalid, hplaced⟩
  refine ⟨placed, _, _, hlayout, extent_eq_ok hcolumns hcount, ?_, hw, hh⟩
  have hexact : ∀ i ∈ List.range items.length,
      (spec.frameAt i).rational? = some (grid.frameAt i) := fun i hi =>
    rational?_frameAt hgrid hcolumns (List.all_eq_true.mp hplaces i hi)
  calc placed.map (·.frame.rational?)
    _ = (placed.map (·.frame)).map Frame.rational? := by
      rw [List.map_map]
      rfl
    _ = (List.range items.length).map fun i => (spec.frameAt i).rational? := by
      rw [map_frame_of_layout hlayout, List.map_map]
      rfl
    _ = (List.range items.length).map fun i => some (grid.frameAt i) := List.map_congr_left hexact
    _ = ((List.range items.length).map grid.frameAt).map some := (List.map_map ..).symm

/-- Cells and gaps of whole eighths of an inch. -/
def eighths : GridSpec Float32 := ⟨3, 2.5, 1, 1, 1.75, 0.5, 0.625⟩

/-- Five items in three columns are laid out without rounding, so their frames share no inner
point. -/
theorem layout_tiles_eighths :
    eighths.validate = .ok () ∧ eighths.unrounded 5 = true ∧
      ∃ grid frames w h placed, eighths.rational? = some grid ∧
        Frame.Encloses ⟨grid.originX, grid.originY, w, h⟩ frames ∧
        eighths.layout ["Ann", "Ben", "Cat", "Dan", "Eve"] = .ok placed ∧
        placed.map (·.frame.rational?) = frames.map some := by
  have hvalid : eighths.validate = .ok () := by decide +kernel
  have hunrounded : eighths.unrounded 5 = true := by decide +kernel
  have hitems : ["Ann", "Ben", "Cat", "Dan", "Eve"] ≠ [] := List.cons_ne_nil _ _
  obtain ⟨grid, frames, w, h, hgrid, _, _, hencloses, hexact⟩ := layout_tiles hvalid hitems
  obtain ⟨placed, _, _, hlayout, _, hplaced, _⟩ := hexact hunrounded
  exact ⟨hvalid, hunrounded, grid, frames, w, h, placed, hgrid, hencloses, hlayout, hplaced⟩

end GridSpec

end Folio
