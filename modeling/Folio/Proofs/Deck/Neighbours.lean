import Folio.Proofs.Deck.Mirror

/-!
# Neighbours in a grid

Between two cards of a group that lie side by side in one row there is one shape, in the order of
the cards, moved to the corner of the left card; there is none anywhere else. So no shape leads from
the end of a row to the next one, and each row has one shape fewer than cards.
-/

namespace Folio

namespace GridSpec

section

variable {L : Type}

/-- Two positions lie in one row. -/
def SameRow (spec : GridSpec L) (i j : Nat) : Prop :=
  ∃ left right row, spec.cell i = .ok (left, row) ∧ spec.cell j = .ok (right, row)

variable {spec : GridSpec L} (h : spec.columns ≠ 0)

include h

/-- The next position lies in the same row unless it begins a row. -/
theorem sameRow_succ_iff (i : Nat) : spec.SameRow i (i + 1) ↔ (i + 1) % spec.columns ≠ 0 := by
  unfold SameRow
  rw [cell_eq_ok h, cell_eq_ok h]
  constructor
  · rintro ⟨left, right, row, hi, hnext⟩ hzero
    cases hi
    have hrow : (i + 1) / spec.columns = i / spec.columns := congrArg Prod.snd (Except.ok.inj hnext)
    rw [Nat.succ_div_of_dvd (Nat.dvd_of_mod_eq_zero hzero)] at hrow
    omega
  · intro hne
    have hrow : (i + 1) / spec.columns = i / spec.columns :=
      Nat.succ_div_of_not_dvd fun hdvd => hne (Nat.mod_eq_zero_of_dvd hdvd)
    rw [hrow]
    exact ⟨_, _, _, rfl, rfl⟩

/-- In the same row the next position lies in the next column. -/
theorem cell_succ_of_sameRow {i : Nat} (hrow : spec.SameRow i (i + 1)) :
    ∃ col row, spec.cell i = .ok (col, row) ∧ spec.cell (i + 1) = .ok (col + 1, row) := by
  obtain ⟨left, right, row, hi, hnext⟩ := hrow
  refine ⟨left, row, hi, ?_⟩
  rw [cell_eq_ok h] at hi hnext
  have hdiv := Nat.div_add_mod i spec.columns
  have hdivNext := Nat.div_add_mod (i + 1) spec.columns
  cases hi
  have hrows : (i + 1) / spec.columns = i / spec.columns := congrArg Prod.snd (Except.ok.inj hnext)
  have hcols : (i + 1) % spec.columns = i % spec.columns + 1 := by
    rw [hrows] at hdivNext
    omega
  rw [cell_eq_ok h, hrows, hcols]

end

end GridSpec

/-- The cards that another one follows in the same row, with their positions from `i` on. -/
def GridSpec.followed (spec : GridSpec Float32) (i : Nat) (cards : List PlacedCard) :
    List (PlacedCard × Nat) :=
  (cards.zipIdx i).dropLast.filter fun entry => (entry.2 + 1) % spec.columns ≠ 0

/-- The first card is followed by a connector unless it is the last one of its row. -/
theorem GridSpec.followed_cons_cons (spec : GridSpec Float32) (i : Nat) (card next : PlacedCard)
    (rest : List PlacedCard) :
    spec.followed i (card :: next :: rest) =
      if (i + 1) % spec.columns = 0 then spec.followed (i + 1) (next :: rest)
      else (card, i) :: spec.followed (i + 1) (next :: rest) := by
  have hlast : ((card :: next :: rest).zipIdx i).dropLast =
      (card, i) :: ((next :: rest).zipIdx (i + 1)).dropLast := rfl
  unfold followed
  rw [hlast, List.filter_cons]
  by_cases hcol : (i + 1) % spec.columns = 0
  · rw [if_pos hcol, if_neg (by simpa using hcol)]
  · rw [if_neg hcol, if_pos (by simpa using hcol)]

/-- There is a shape for each card that another one follows. -/
theorem Connector.placeAll_eq {spec : GridSpec Float32} (h : spec.columns ≠ 0) (c : Connector)
    (fill : Option Color) (i : Nat) (cards : List PlacedCard) :
    c.placeAll fill spec i cards =
      .ok ((spec.followed i cards).map fun entry => c.place fill entry.1) := by
  fun_induction placeAll c fill spec i cards with
  | case1 => rfl
  | case2 => rfl
  | case3 i card next rest ih =>
    rw [GridSpec.cell_eq_ok h, ih, spec.followed_cons_cons]
    by_cases hcol : (i + 1) % spec.columns = 0
    · rw [if_pos hcol]
      exact congrArg Except.ok (if_pos hcol)
    · rw [if_neg hcol]
      exact congrArg Except.ok (if_neg hcol)

namespace GridSpec

variable {spec : GridSpec Float32}

/-- A connector follows each card but the last one and those at the end of a row. -/
theorem map_snd_followed (cards : List PlacedCard) :
    (spec.followed 0 cards).map Prod.snd =
      (List.range (cards.length - 1)).filter fun i => (i + 1) % spec.columns ≠ 0 := by
  have hlast : (cards.zipIdx.dropLast).map Prod.snd = List.range (cards.length - 1) := by
    rw [List.map_dropLast, List.zipIdx_map_snd, ← List.range_eq_range', List.dropLast_eq_take,
      List.length_range, List.take_range, Nat.min_eq_left (Nat.sub_le _ _)]
  rw [← hlast, List.filter_map]
  rfl

/-- The positions in their order at which a card is followed in its row. -/
theorem mem_map_snd_followed_iff (h : spec.columns ≠ 0) {cards : List PlacedCard} {i : Nat} :
    i ∈ (spec.followed 0 cards).map Prod.snd ↔ i + 1 < cards.length ∧ spec.SameRow i (i + 1) := by
  rw [map_snd_followed, List.mem_filter, List.mem_range, decide_eq_true_iff, sameRow_succ_iff h]
  omega

/-- A connector follows a card that stands at the position counted for it. -/
theorem getElem?_of_mem_followed {cards : List PlacedCard} {card : PlacedCard} {i : Nat}
    (h : (card, i) ∈ spec.followed 0 cards) : cards[i]? = some card :=
  List.mk_mem_zipIdx_iff_getElem?.mp
    ((List.dropLast_sublist _).subset (List.mem_of_mem_filter h))

/-- Items take up at most as many rows as they are. -/
theorem rows_le_of_rowsFor {count rows : Nat} (h : spec.rowsFor count = .ok rows) :
    rows ≤ count := by
  unfold rowsFor at h
  split at h
  · cases h
  · rename_i hcolumns
    cases h
    cases count with
    | zero => exact Nat.le_of_eq (Nat.div_eq_of_lt (by omega))
    | succ count =>
      have hpos := Nat.le_mul_of_pos_left count (Nat.pos_of_ne_zero hcolumns)
      refine Nat.div_le_of_le_mul ?_
      rw [Nat.mul_succ]
      omega

end GridSpec

namespace GridGroup

variable {group : GridGroup}

/-- The card at a position lies in the cell of that position. -/
theorem anchor_of_shows {frames : List Box} {cards : List PlacedCard}
    (h : List.Forall₂ (group.Shows frames) group.items.zipIdx cards) {card : PlacedCard} {i : Nat}
    (hcard : cards[i]? = some card) :
    group.spec.anchor i = .ok (card.item.frame.x, card.item.frame.y) := by
  obtain ⟨hi, rfl⟩ := List.getElem?_eq_some_iff.mp hcard
  have hitem : i < group.items.zipIdx.length := h.length_eq ▸ hi
  obtain ⟨x, y, _, _, hanchor, hplaced, _⟩ := h.get hitem hi
  rw [List.get_eq_getElem, List.getElem_zipIdx, Nat.zero_add] at hanchor
  rw [List.get_eq_getElem] at hplaced
  rw [hanchor, hplaced]

/-- Shapes between neighbours, with the fill that the connector has in the theme. -/
theorem connectors_eq {styling : Styling} (hcolumns : group.spec.columns ≠ 0) {c : Connector}
    (hc : group.card.connector = some c) {cards : List PlacedCard} {shapes : List PlacedShape}
    (h : group.placeConnectors styling cards = .ok shapes) :
    ∃ fill, ColorRef.resolveAny styling.theme c.fill = .ok fill ∧
      shapes = (group.spec.followed 0 cards).map fun entry => c.place fill entry.1 := by
  unfold placeConnectors at h
  rw [hc] at h
  obtain ⟨fill, hfill, h⟩ := bind_eq_ok_iff.mp h
  rw [c.placeAll_eq hcolumns] at h
  cases h
  exact ⟨fill, hfill, rfl⟩

/-- The shapes between the cards of a group are, in their order, one for each card that another one
follows in the same row. It lies where the template says, from the corner of that card, and has the
fill of the template; there are as many as cards less rows. -/
theorem connectors_of_place {styling : Styling} {placed : PlacedGroup}
    (h : group.place styling = .ok placed) :
    (group.card.connector = none → placed.connectors = []) ∧
      ∀ c, group.card.connector = some c → ∃ fill positions rows,
        ColorRef.resolveAny styling.theme c.fill = .ok fill ∧
        positions.Pairwise (· < ·) ∧
        (∀ i, i ∈ positions ↔ i + 1 < group.items.length ∧ group.spec.SameRow i (i + 1)) ∧
        (∀ i ∈ positions, ∃ col row, group.spec.cell i = .ok (col, row) ∧
          group.spec.cell (i + 1) = .ok (col + 1, row)) ∧
        List.Forall₂ (fun i shape => ∃ x y, group.spec.anchor i = .ok (x, y) ∧
          shape = { frame := ⟨c.frame.x + x, c.frame.y + y, c.frame.w, c.frame.h⟩,
                    kind := c.kind, fill }) positions placed.connectors ∧
        group.spec.rowsFor group.items.length = .ok rows ∧
        placed.connectors.length + rows = group.items.length := by
  obtain ⟨⟨frames, _, hshows⟩, rows, hrows, hlength⟩ := mirroredBy_of_place h
  obtain ⟨items, hitems, h⟩ := bind_eq_ok_iff.mp h
  obtain ⟨_, _, h⟩ := bind_eq_ok_iff.mp h
  obtain ⟨cards, _, h⟩ := bind_eq_ok_iff.mp h
  obtain ⟨shapes, hshapes, h⟩ := bind_eq_ok_iff.mp h
  cases h
  obtain ⟨hcolumns, _⟩ := GridSpec.layout_eq_ok hitems
  have hcount : cards.length = group.items.length := by
    rw [← hshows.length_eq, List.length_zipIdx]
  constructor
  · intro hnone
    unfold placeConnectors at hshapes
    rw [hnone] at hshapes
    cases hshapes
    rfl
  · intro c hc
    obtain ⟨fill, hfill, rfl⟩ := connectors_eq hcolumns hc hshapes
    have hmem (i : Nat) : i ∈ (group.spec.followed 0 cards).map Prod.snd ↔
        i + 1 < group.items.length ∧ group.spec.SameRow i (i + 1) := by
      rw [← hcount]
      exact GridSpec.mem_map_snd_followed_iff hcolumns
    refine ⟨fill, (group.spec.followed 0 cards).map Prod.snd, rows, hfill, ?_, hmem, ?_, ?_, hrows,
      ?_⟩
    · rw [GridSpec.map_snd_followed]
      exact List.pairwise_lt_range.filter _
    · intro i hi
      exact GridSpec.cell_succ_of_sameRow hcolumns ((hmem i).mp hi).2
    · rw [List.forall₂_map_left_iff, List.forall₂_map_right_iff, List.forall₂_same]
      intro entry hentry
      exact ⟨_, _, anchor_of_shows hshows (GridSpec.getElem?_of_mem_followed hentry), rfl⟩
    · rw [hc, Option.isSome_some, if_pos rfl] at hlength
      have hle := GridSpec.rows_le_of_rowsFor hrows
      omega

/-- Five cards in three columns, each joined to the next one. -/
def fiveCards : GridGroup :=
  { items := GridItem.ofLabels ["Ann", "Ben", "Cat", "Dan", "Eve"]
    spec := ⟨3, 2.4, 1, 1, 1.7, 0.4, 0.6⟩
    card := { connector := some { kind := .rightArrow, frame := ⟨2.5, 0.4, 0.2, 0.2⟩ } } }

/-- Two shapes join the full row and one the two cards below, and none the two rows. -/
theorem connectors_of_place_fiveCards :
    ∃ placed positions,
      fiveCards.place ⟨Stylesheet.plainTheme, Stylesheet.letter⟩ = .ok placed ∧
      (∀ i, i ∈ positions ↔ i + 1 < 5 ∧ fiveCards.spec.SameRow i (i + 1)) ∧
      List.Forall₂ (fun i shape => ∃ x y, fiveCards.spec.anchor i = .ok (x, y) ∧
        shape = { frame := ⟨2.5 + x, 0.4 + y, 0.2, 0.2⟩, kind := .rightArrow, fill := none })
        positions placed.connectors ∧
      placed.connectors.length = 3 := by
  obtain ⟨placed, hplaced⟩ : ∃ placed,
      fiveCards.place ⟨Stylesheet.plainTheme, Stylesheet.letter⟩ = .ok placed :=
    exists_eq_ok_of_isOk (by decide +kernel)
  obtain ⟨fill, positions, rows, hfill, _, hmem, _, hshapes, hrows, hcount⟩ :=
    (connectors_of_place hplaced).2 _ rfl
  cases hfill
  have htwo : fiveCards.spec.rowsFor fiveCards.items.length = .ok 2 := by decide
  cases hrows.symm.trans htwo
  exact ⟨placed, positions, hplaced, hmem, hshapes, Nat.add_right_cancel hcount⟩

end GridGroup

end Folio
