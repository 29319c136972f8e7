import Folio.Deck.Stack
import Mathlib.Data.List.Basic
import Mathlib.Data.Prod.Lex

/-!
# Validation of measures

The checks of a card and of a grid pass exactly when every measure is in range: sizes, gaps and
paddings are finite and not negative, margins, offsets and origins are finite. Otherwise the error
names the first measure out of range, in the order of the checks: paddings clockwise from the top,
then slot by slot; for a grid the columns, the sizes, the gaps and the origin.
-/

namespace Folio

namespace Requirement

/-- What a requirement asks of a length. -/
def Admits : Requirement → Float32 → Prop
  | .nonNegative, x => x.isFinite = true ∧ 0 ≤ x
  | .finite, x => x.isFinite = true

theorem holds_iff {r : Requirement} {x : Float32} : r.holds x = true ↔ r.Admits x := by
  cases r with
  | nonNegative => simp [holds, Admits]
  | finite => rfl

theorem not_holds_iff {r : Requirement} {x : Float32} : (!r.holds x) = true ↔ ¬r.Admits x := by
  rw [← holds_iff, Bool.not_eq_true', Bool.not_eq_true]

end Requirement

section

variable {μ β : Type} [LinearOrder β] {rank : μ → β}

/-- In an ascending list the first entry that passes a test is the least one that does. -/
theorem find?_eq_some_iff_least {α : Type} {key : α → β} {l : List α}
    (hl : l.Pairwise fun a b => key a < key b) {p : α → Bool} {a : α} :
    l.find? p = some a ↔ a ∈ l ∧ p a = true ∧ ∀ b ∈ l, p b = true → key a ≤ key b := by
  rw [List.find?_eq_some_iff_append]
  constructor
  · rintro ⟨ha, before, after, rfl, hbefore⟩
    refine ⟨List.mem_append_right _ List.mem_cons_self, ha, fun b hb hpass => ?_⟩
    rcases List.mem_append.mp hb with hb | hb
    · have hfail := hbefore b hb
      rw [hpass] at hfail
      cases hfail
    · rcases List.mem_cons.mp hb with rfl | hb
      · exact le_rfl
      · exact ((List.pairwise_cons.mp (List.pairwise_append.mp hl).2.1).1 b hb).le
  · rintro ⟨hmem, ha, hleast⟩
    obtain ⟨before, after, rfl⟩ := List.append_of_mem hmem
    refine ⟨ha, before, after, rfl, fun b hb => ?_⟩
    have hlt : key b < key a := (List.pairwise_append.mp hl).2.2 b hb a List.mem_cons_self
    cases hpass : p b with
    | false => rfl
    | true => exact absurd hlt (hleast b (List.mem_append_left _ hb) hpass).not_gt

/-- Of measures in the order of their ranks the one is found that violates its requirement and that
no other one precedes which does. -/
theorem find?_violation_eq_some_iff (requirement : μ → Requirement) {measures : List (μ × Float32)}
    (hmeasures : measures.Pairwise fun a b => rank a.1 < rank b.1) (m : μ) (v : Float32) :
    measures.find? (fun a => !(requirement a.1).holds a.2) = some (m, v) ↔
      (m, v) ∈ measures ∧ ¬(requirement m).Admits v ∧
        ∀ m' v', (m', v') ∈ measures → ¬(requirement m').Admits v' → rank m ≤ rank m' := by
  rw [find?_eq_some_iff_least hmeasures]
  simp only [Requirement.not_holds_iff, Prod.forall]

/-- Nothing is violated when every measure is admitted. -/
theorem find?_violation_eq_none_iff (requirement : μ → Requirement)
    (measures : List (μ × Float32)) :
    measures.find? (fun a => !(requirement a.1).holds a.2) = none ↔
      ∀ m v, (m, v) ∈ measures → (requirement m).Admits v := by
  simp only [List.find?_eq_none, Requirement.not_holds_iff, not_not, Prod.forall]

end

/-- Where a measure of a slot stands among the checks of the slot. -/
def SlotMeasure.rank : SlotMeasure → ℕ
  | .height => 0
  | .width => 1
  | .marginTop => 2
  | .x => 3
  | .y => 4

/-- Where a measure of a card stands among its checks: the paddings come before the slots, and the
slots in their order. -/
def CardMeasure.rank : CardMeasure → ℕ ×ₗ ℕ
  | .paddingTop => toLex (0, 0)
  | .paddingRight => toLex (0, 1)
  | .paddingBottom => toLex (0, 2)
  | .paddingLeft => toLex (0, 3)
  | .slot position m => toLex (position + 1, m.rank)

namespace Slot

/-- The value of a measure, if the slot has it. -/
def measure? (s : Slot) : SlotMeasure → Option Float32
  | .height => some s.height
  | .width => s.width
  | .marginTop =>
    match s.placement with
    | .flow marginTop => some marginTop
    | .absolute _ _ => none
  | .x =>
    match s.placement with
    | .flow _ => none
    | .absolute x _ => some x
  | .y =>
    match s.placement with
    | .flow _ => none
    | .absolute _ y => some y

/-- The measures of a slot are in range. -/
structure InRange (s : Slot) : Prop where
  height : s.height.isFinite = true ∧ 0 ≤ s.height
  width : ∀ w, s.width = some w → w.isFinite = true ∧ 0 ≤ w
  margin : ∀ marginTop, s.placement = .flow marginTop → marginTop.isFinite = true
  offset : ∀ x y, s.placement = .absolute x y → x.isFinite = true ∧ y.isFinite = true

theorem measure?_marginTop_eq_some_iff {s : Slot} {v : Float32} :
    s.measure? .marginTop = some v ↔ s.placement = .flow v := by
  unfold measure?
  cases s.placement <;> simp

theorem measure?_x_eq_some_iff {s : Slot} {v : Float32} :
    s.measure? .x = some v ↔ ∃ y, s.placement = .absolute v y := by
  unfold measure?
  cases s.placement <;> simp

theorem measure?_y_eq_some_iff {s : Slot} {v : Float32} :
    s.measure? .y = some v ↔ ∃ x, s.placement = .absolute x v := by
  unfold measure?
  cases s.placement <;> simp

/-- A slot is in range when each measure that it has is admitted, whatever its position. -/
theorem inRange_iff {s : Slot} (position : Nat) :
    s.InRange ↔ ∀ m v, s.measure? m = some v →
      (CardMeasure.slot position m).requirement.Admits v := by
  constructor
  · intro h m v hm
    cases m with
    | height =>
      cases hm
      exact h.height
    | width => exact h.width v hm
    | marginTop => exact h.margin v (measure?_marginTop_eq_some_iff.mp hm)
    | x =>
      obtain ⟨y, hplacement⟩ := measure?_x_eq_some_iff.mp hm
      exact (h.offset v y hplacement).1
    | y =>
      obtain ⟨x, hplacement⟩ := measure?_y_eq_some_iff.mp hm
      exact (h.offset x v hplacement).2
  · intro h
    exact {
      height := h .height _ rfl
      width := h .width
      margin := fun marginTop hplacement =>
        h .marginTop marginTop (measure?_marginTop_eq_some_iff.mpr hplacement)
      offset := fun x y hplacement =>
        ⟨h .x x (measure?_x_eq_some_iff.mpr ⟨y, hplacement⟩),
          h .y y (measure?_y_eq_some_iff.mpr ⟨x, hplacement⟩)⟩ }

end Slot

namespace CardTemplate

/-- The value of a measure, if the card has it. -/
def measure? (card : CardTemplate) : CardMeasure → Option Float32
  | .paddingTop => some card.padding.top
  | .paddingRight => some card.padding.right
  | .paddingBottom => some card.padding.bottom
  | .paddingLeft => some card.padding.left
  | .slot position m => card.slots[position]?.bind (·.measure? m)

/-- The measures of a card are in range. -/
structure InRange (card : CardTemplate) : Prop where
  top : card.padding.top.isFinite = true ∧ 0 ≤ card.padding.top
  right : card.padding.right.isFinite = true ∧ 0 ≤ card.padding.right
  bottom : card.padding.bottom.isFinite = true ∧ 0 ≤ card.padding.bottom
  left : card.padding.left.isFinite = true ∧ 0 ≤ card.padding.left
  slots : ∀ s ∈ card.slots, s.InRange

/-- A card has a measure with a value out of range. -/
def Violates (card : CardTemplate) (m : CardMeasure) (v : Float32) : Prop :=
  card.measure? m = some v ∧ ¬m.requirement.Admits v

variable {card : CardTemplate}

theorem mem_slotMeasures_iff {s : Slot} {m : SlotMeasure} {v : Float32} :
    (m, v) ∈ slotMeasures s ↔ s.measure? m = some v := by
  unfold slotMeasures Slot.measure?
  cases m <;> cases s.width <;> cases s.placement <;> simp [eq_comm]

/-- The measures that are checked are those that the card has. -/
theorem mem_measures_iff {m : CardMeasure} {v : Float32} :
    (m, v) ∈ card.measures ↔ card.measure? m = some v := by
  unfold measures measure?
  cases m with
  | slot position m =>
    rw [Option.bind_eq_some_iff]
    constructor
    · intro h
      obtain ⟨⟨s, i⟩, hs, h⟩ := List.mem_flatMap.mp ((List.mem_append.mp h).resolve_left (by simp))
      obtain ⟨⟨m', v'⟩, hm, heq⟩ := List.mem_map.mp h
      cases heq
      exact ⟨s, List.mk_mem_zipIdx_iff_getElem?.mp hs, mem_slotMeasures_iff.mp hm⟩
    · rintro ⟨s, hs, hm⟩
      refine List.mem_append_right _ (List.mem_flatMap.mpr ⟨(s, position), ?_, ?_⟩)
      · exact List.mk_mem_zipIdx_iff_getElem?.mpr hs
      · exact List.mem_map.mpr ⟨(m, v), mem_slotMeasures_iff.mpr hm, rfl⟩
  | _ => simp [eq_comm]

theorem pairwise_slotMeasures (s : Slot) :
    (slotMeasures s).Pairwise fun a b => a.1.rank < b.1.rank := by
  unfold slotMeasures
  cases s.width <;> cases s.placement <;> simp [SlotMeasure.rank]

/-- The measures of a card are checked in the order of their ranks. -/
theorem pairwise_measures (card : CardTemplate) :
    card.measures.Pairwise fun a b => a.1.rank < b.1.rank := by
  have hpositions : card.slots.zipIdx.Pairwise fun a b => a.2 < b.2 := by
    rw [← List.pairwise_map, List.zipIdx_map_snd]
    exact List.pairwise_lt_range'
  refine List.pairwise_append.mpr ⟨?_, List.pairwise_flatMap.mpr ⟨?_, ?_⟩, ?_⟩
  · simp [CardMeasure.rank, Prod.Lex.toLex_lt_toLex]
  · rintro ⟨s, position⟩ _
    refine List.pairwise_map.mpr ((pairwise_slotMeasures s).imp fun h => ?_)
    exact Prod.Lex.toLex_lt_toLex.mpr (.inr ⟨rfl, h⟩)
  · refine hpositions.imp fun hlt a ha b hb => ?_
    obtain ⟨_, _, rfl⟩ := List.mem_map.mp ha
    obtain ⟨_, _, rfl⟩ := List.mem_map.mp hb
    exact Prod.Lex.toLex_lt_toLex.mpr (.inl (Nat.succ_lt_succ hlt))
  · intro a ha b hb
    obtain ⟨_, _, hb⟩ := List.mem_flatMap.mp hb
    obtain ⟨_, _, rfl⟩ := List.mem_map.mp hb
    simp only [List.mem_cons, List.not_mem_nil, or_false] at ha
    rcases ha with rfl | rfl | rfl | rfl <;>
      exact Prod.Lex.toLex_lt_toLex.mpr (.inl (Nat.succ_pos _))

/-- A card is in range when each measure that it has is admitted. -/
theorem inRange_iff :
    card.InRange ↔ ∀ m v, card.measure? m = some v → m.requirement.Admits v := by
  constructor
  · intro h m v hm
    cases m with
    | paddingTop =>
      cases hm
      exact h.top
    | paddingRight =>
      cases hm
      exact h.right
    | paddingBottom =>
      cases hm
      exact h.bottom
    | paddingLeft =>
      cases hm
      exact h.left
    | slot position m =>
      obtain ⟨s, hs, hm⟩ := Option.bind_eq_some_iff.mp hm
      exact (Slot.inRange_iff position).mp (h.slots s (List.mem_of_getElem? hs)) m v hm
  · intro h
    refine ⟨h .paddingTop _ rfl, h .paddingRight _ rfl, h .paddingBottom _ rfl,
      h .paddingLeft _ rfl, fun s hs => ?_⟩
    obtain ⟨position, hposition⟩ := List.mem_iff_getElem?.mp hs
    refine (Slot.inRange_iff position).mpr fun m v hm => h (.slot position m) v ?_
    exact Option.bind_eq_some_iff.mpr ⟨s, hposition, hm⟩

/-- Validation accepts a card exactly when its measures are in range. -/
theorem validate_eq_ok_iff : card.validate = .ok () ↔ card.InRange := by
  have hnone := find?_violation_eq_none_iff CardMeasure.requirement card.measures
  simp only [mem_measures_iff] at hnone
  rw [inRange_iff, ← hnone]
  unfold validate
  cases card.measures.find? fun m => !m.1.requirement.holds m.2 with
  | none => simp
  | some m => simp

/-- The error names the violation of the least rank. -/
theorem validate_eq_error_iff {e : BuildError} :
    card.validate = .error e ↔ ∃ m v, e = .cardMeasure m v ∧ card.Violates m v ∧
      ∀ m' v', card.Violates m' v' → m.rank ≤ m'.rank := by
  have hfirst := find?_violation_eq_some_iff CardMeasure.requirement card.pairwise_measures
  simp only [mem_measures_iff, ← and_assoc, ← and_imp] at hfirst
  unfold validate Violates
  simp only [← hfirst]
  cases card.measures.find? fun m => !m.1.requirement.holds m.2 with
  | none => simp
  | some m =>
    obtain ⟨m, v⟩ := m
    simp [eq_comm]

end CardTemplate

/-- Where a measure of a grid stands among its checks. -/
def GridMeasure.rank : GridMeasure → ℕ
  | .cellWidth => 0
  | .cellHeight => 1
  | .colGap => 2
  | .rowGap => 3
  | .originX => 4
  | .originY => 5

namespace GridSpec

/-- The value of a measure. -/
def measure (spec : GridSpec Float32) : GridMeasure → Float32
  | .cellWidth => spec.cellWidth
  | .cellHeight => spec.cellHeight
  | .colGap => spec.colGap
  | .rowGap => spec.rowGap
  | .originX => spec.originX
  | .originY => spec.originY

/-- A grid has columns, and its measures are in range. -/
structure InRange (spec : GridSpec Float32) : Prop where
  columns : 0 < spec.columns
  cellWidth : spec.cellWidth.isFinite = true ∧ 0 ≤ spec.cellWidth
  cellHeight : spec.cellHeight.isFinite = true ∧ 0 ≤ spec.cellHeight
  colGap : spec.colGap.isFinite = true ∧ 0 ≤ spec.colGap
  rowGap : spec.rowGap.isFinite = true ∧ 0 ≤ spec.rowGap
  originX : spec.originX.isFinite = true
  originY : spec.originY.isFinite = true

/-- A measure of a grid has a value out of range. -/
def Violates (spec : GridSpec Float32) (m : GridMeasure) (v : Float32) : Prop :=
  spec.measure m = v ∧ ¬m.requirement.Admits v

variable {spec : GridSpec Float32}

theorem mem_measures_iff {m : GridMeasure} {v : Float32} :
    (m, v) ∈ spec.measures ↔ spec.measure m = v := by
  unfold measures measure
  cases m <;> simp [eq_comm]

/-- The measures of a grid are checked in the order of their ranks. -/
theorem pairwise_measures (spec : GridSpec Float32) :
    spec.measures.Pairwise fun a b => a.1.rank < b.1.rank := by
  simp [measures, GridMeasure.rank]

/-- A grid is in range when it has columns and each of its measures is admitted. -/
theorem inRange_iff :
    spec.InRange ↔ 0 < spec.columns ∧ ∀ m : GridMeasure, m.requirement.Admits (spec.measure m) := by
  constructor
  · intro h
    refine ⟨h.columns, fun m => ?_⟩
    cases m with
    | cellWidth => exact h.cellWidth
    | cellHeight => exact h.cellHeight
    | colGap => exact h.colGap
    | rowGap => exact h.rowGap
    | originX => exact h.originX
    | originY => exact h.originY
  · rintro ⟨hcolumns, h⟩
    exact ⟨hcolumns, h .cellWidth, h .cellHeight, h .colGap, h .rowGap, h .originX, h .originY⟩

/-- Validation accepts a grid exactly when its measures are in range. -/
theorem validate_eq_ok_iff : spec.validate = .ok () ↔ spec.InRange := by
  have hnone := find?_violation_eq_none_iff GridMeasure.requirement spec.measures
  simp only [mem_measures_iff, forall_eq'] at hnone
  rw [inRange_iff, ← hnone]
  unfold validate
  cases hcolumns : spec.columns with
  | zero => simp
  | succ columns =>
    cases spec.measures.find? fun m => !m.1.requirement.holds m.2 with
    | none => simp
    | some m => simp

/-- The error names the columns if there are none, and otherwise the violation of the least rank. -/
theorem validate_eq_error_iff {e : BuildError} :
    spec.validate = .error e ↔ spec.columns = 0 ∧ e = .gridWithoutColumns ∨
      0 < spec.columns ∧ ∃ m v, e = .gridMeasure m v ∧ spec.Violates m v ∧
        ∀ m' v', spec.Violates m' v' → m.rank ≤ m'.rank := by
  have hfirst := find?_violation_eq_some_iff GridMeasure.requirement spec.pairwise_measures
  simp only [mem_measures_iff, ← and_assoc, ← and_imp] at hfirst
  unfold validate Violates
  simp only [← hfirst]
  cases hcolumns : spec.columns with
  | zero => simp [eq_comm]
  | succ columns =>
    cases spec.measures.find? fun m => !m.1.requirement.holds m.2 with
    | none => simp
    | some m =>
      obtain ⟨m, v⟩ := m
      simp [eq_comm]

end GridSpec

/-- The message about a measure of a slot says which slot it is. -/
theorem BuildError.message_slot (position : Nat) (m : SlotMeasure) (v : Float32) :
    (BuildError.cardMeasure (.slot position m) v).message =
      "invalid card template: " ++ (CardMeasure.slot position m).name ++ " of slot " ++
        toString position ++ " must be " ++ (CardMeasure.slot position m).requirement.wording ++
        ", got " ++ Number.plainText v := by
  have hof : " of slot " = " " ++ "of slot " := by decide
  have hmust : " must be " = " " ++ "must be " := by decide
  unfold message CardMeasure.place
  simp only [hof, hmust, String.append_assoc]

/-- A card passes its checks exactly when its paddings and the sizes of its slots are finite and not
negative and the margins and offsets of its slots are finite, and a grid exactly when it has
columns, its sizes and gaps are finite and not negative and its origin is finite. Otherwise the
error names the first measure that is not, and for a slot its message says which slot that is. -/
theorem validate_names_first (card : CardTemplate) (spec : GridSpec Float32) :
    (card.validate = .ok () ↔ card.InRange) ∧
      (∀ e, card.validate = .error e ↔ ∃ m v, e = .cardMeasure m v ∧ card.Violates m v ∧
        ∀ m' v', card.Violates m' v' → m.rank ≤ m'.rank) ∧
      (∀ position m v, (BuildError.cardMeasure (.slot position m) v).message =
        "invalid card template: " ++ (CardMeasure.slot position m).name ++ " of slot " ++
          toString position ++ " must be " ++ (CardMeasure.slot position m).requirement.wording ++
          ", got " ++ Number.plainText v) ∧
      (spec.validate = .ok () ↔ spec.InRange) ∧
      ∀ e, spec.validate = .error e ↔ spec.columns = 0 ∧ e = .gridWithoutColumns ∨
        0 < spec.columns ∧ ∃ m v, e = .gridMeasure m v ∧ spec.Violates m v ∧
          ∀ m' v', spec.Violates m' v' → m.rank ≤ m'.rank :=
  ⟨CardTemplate.validate_eq_ok_iff, fun _ => CardTemplate.validate_eq_error_iff,
    BuildError.message_slot, GridSpec.validate_eq_ok_iff, fun _ => GridSpec.validate_eq_error_iff⟩

/-- A card whose second slot has a negative width at an offset that is not a number. -/
def crooked : CardTemplate :=
  { padding := .uniform 0.1
    slots := [Slot.label 0.5, ((Slot.label 0.4).ofWidth (-1)).placed (0 / 0) 0] }

/-- A grid with a negative gap and an origin at infinity. -/
def skewed : GridSpec Float32 := ⟨2, 1, 1, 1 / 0, 0, -0.5, 0⟩

/-- The width of the second slot comes before its offset, and the gap of a grid before its
origin. -/
theorem validate_names_first_crooked :
    crooked.validate = .error (.cardMeasure (.slot 1 .width) (-1)) ∧ ¬crooked.InRange ∧
      (∀ m v, crooked.Violates m v → (CardMeasure.slot 1 .width).rank ≤ m.rank) ∧
      (BuildError.cardMeasure (.slot 1 .width) (-1)).message =
        "invalid card template: width of slot 1 must be a non-negative number, got -1" ∧
      skewed.validate = .error (.gridMeasure .colGap (-0.5)) ∧ ¬skewed.InRange := by
  obtain ⟨hcard, hfirst, hmessage, hgrid, _⟩ := validate_names_first crooked skewed
  have hwidth : crooked.validate = .error (.cardMeasure (.slot 1 .width) (-1)) := by
    decide +kernel
  have hgap : skewed.validate = .error (.gridMeasure .colGap (-0.5)) := by decide +kernel
  obtain ⟨m, v, heq, _, hleast⟩ := (hfirst _).mp hwidth
  cases heq
  refine ⟨hwidth, fun hrange => ?_, hleast, ?_, hgap, fun hrange => ?_⟩
  · cases hwidth.symm.trans (hcard.mpr hrange)
  · rw [hmessage]
    decide +kernel
  · cases hgap.symm.trans (hgrid.mpr hrange)

end Folio
