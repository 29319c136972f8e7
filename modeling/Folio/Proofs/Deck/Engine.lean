import Folio.Proofs.Deck.Passes

/-!
# An engine of column layout

An engine that goes through the passes once, from the first box to the last. It shares out all the
space in one round, so a box that its limits keep from its part does not leave the rest to others,
and a box has no size by its contents. The rules of the passes allow it that.
-/

namespace Folio

open Folio.Number

namespace FlowRun

/-- A box after a round in which all boxes are frozen. -/
def settled (growing : Bool) (space shares : Float32) (i : FlowRun) : FlowRun :=
  { i with
    height := if (i.begun growing).frozen then i.hypothetical else i.resized growing space shares
    frozen := true }

/-- Boxes one below the other from an edge on, each below its gap. -/
def stacked (gap : Nat → Float32) : Nat → Float32 → List FlowRun → List FlowRun
  | _, _, [] => []
  | k, edge, i :: rest =>
    let placed := { i with gap := gap k, edge }
    placed :: stacked gap (k + 1) placed.bottom rest

variable {growing : Bool} {space shares : Float32} {i : FlowRun} {items : List FlowRun}

/-- The one round keeps a box that is frozen before it. -/
theorem settled_of_frozen (h : (i.begun growing).frozen = true) :
    i.settled growing space shares = i.begun growing := by
  unfold settled
  rw [if_pos h, ← h]
  rfl

/-- The one round follows the rule of rounds. -/
theorem resized_settled (growing : Bool) (space shares : Float32) (i : FlowRun) :
    Resized growing space shares (i.begun growing) (i.settled growing space shares) := by
  unfold Resized
  split
  · rename_i hfrozen
    exact settled_of_frozen hfrozen
  · rename_i hfrozen
    refine ⟨true, ?_⟩
    unfold settled
    rw [if_neg hfrozen]
    rfl

/-- One round is enough, or none if all boxes are frozen before it. -/
theorem sharedOut_settled (space shares : Float32)
    (hitems : ∀ i ∈ items, i.settled growing space shares = i) :
    SharedOut growing (items.map (·.begun growing)) items := by
  have hfrozen : ∀ i ∈ items, i.frozen = true := by
    intro i hi
    rw [← hitems i hi]
    rfl
  by_cases hbegun : ∃ i ∈ items, (i.begun growing).frozen = false
  · obtain ⟨i, hi, hnot⟩ := hbegun
    refine .round space shares ⟨_, List.mem_map_of_mem hi, hnot⟩ ?_ (.done hfrozen)
    refine List.forall₂_map_left_iff.mpr (List.forall₂_same.mpr fun j hj => ?_)
    have hresized := resized_settled growing space shares j
    rwa [hitems j hj] at hresized
  · have hkept : items.map (·.begun growing) = items := by
      refine (List.map_congr_left fun j hj => ?_).trans (List.map_id items)
      have hj' : (j.begun growing).frozen = true :=
        Bool.of_not_eq_false fun hnot => hbegun ⟨j, hj, hnot⟩
      exact (settled_of_frozen hj').symm.trans (hitems j hj)
    rw [hkept]
    exact .done hfrozen

variable {gap : Nat → Float32} {k : Nat} {edge : Float32}

/-- What is put in a stack gets a place there and keeps all the rest. -/
theorem exists_of_mem_stacked {j : FlowRun} (hj : j ∈ stacked gap k edge items) :
    ∃ i ∈ items, j = { i with gap := j.gap, edge := j.edge } := by
  induction items generalizing k edge with
  | nil => cases hj
  | cons i rest ih =>
    rcases List.mem_cons.mp hj with rfl | hrest
    · exact ⟨i, List.mem_cons_self, rfl⟩
    · obtain ⟨i', hi', hplaced⟩ := ih hrest
      exact ⟨i', List.mem_cons_of_mem _ hi', hplaced⟩

/-- What does not depend on the place of a box is the same in a stack. -/
theorem map_stacked {α : Type} {f : FlowRun → α}
    (hf : ∀ (i : FlowRun) (gap edge : Float32), f { i with gap, edge } = f i) :
    (stacked gap k edge items).map f = items.map f := by
  induction items generalizing k edge with
  | nil => rfl
  | cons i rest ih => exact congrArg₂ List.cons (hf i _ _) ih

/-- A box in a stack has the gap that is meant for its position. -/
theorem gap_of_getElem?_stacked {n : Nat} {j : FlowRun}
    (hj : (stacked gap k edge items)[n]? = some j) : j.gap = gap (k + n) := by
  induction items generalizing k edge n with
  | nil => cases hj
  | cons i rest ih =>
    cases n with
    | zero =>
      obtain rfl := Option.some.inj hj
      rfl
    | succ n =>
      rw [ih hj]
      congr 1
      omega

/-- A stack begins at its edge. -/
theorem edge_of_mem_head?_stacked {j : FlowRun} (hj : j ∈ (stacked gap k edge items).head?) :
    j.edge = edge := by
  cases items with
  | nil => cases hj
  | cons i rest =>
    obtain rfl := Option.some.inj hj
    rfl

/-- In a stack each box begins where the one before it ends. -/
theorem isChain_stacked : (stacked gap k edge items).IsChain fun i j => j.edge = i.bottom := by
  induction items generalizing k edge with
  | nil => exact .nil
  | cons i rest ih => exact ih.cons fun j hj => edge_of_mem_head?_stacked hj

end FlowRun

/-- The base height of a box, without anything in it. -/
def FlowBox.base (b : FlowBox) : Float32 := ((b.basis.or b.height).map (greater · 0)).getD 0

/-- The width of a box before it is stretched, without anything in it. -/
def FlowBox.natural (b : FlowBox) : Float32 :=
  (b.width.map fun width => greater (b.widthLimits.clamp width) 0).getD 0

/-- The boxes in the flow. -/
def ColumnBox.inFlow (boxes : List ColumnBox) : List FlowBox :=
  boxes.filterMap fun
    | .flow b => some b
    | .fixed _ => none

/-- The frame of a box out of the flow of a column of some width and height. -/
def FixedBox.frame (b : FixedBox) (width height : Float32) : Box :=
  let w := (fixedSize? width b.width b.left b.right b.margin.left b.margin.right).getD 0
  let h := (fixedSize? height b.height b.top b.bottom b.margin.top b.margin.bottom).getD 0
  { x := (fixedStart? width w b.left b.right b.margin.left b.margin.right).getD 0
    y := (fixedStart? height h b.top b.bottom b.margin.top b.margin.bottom).getD 0, w, h }

namespace Column

/-- The boxes in the flow of a column. -/
def inFlow (c : Column) : List FlowBox := ColumnBox.inFlow c.boxes

/-- The width of the line of boxes. -/
def line (c : Column) : Float32 :=
  match c.width with
  | some width => greater (greater width c.padding.across - c.padding.across) 0
  | none => (c.inFlow.map fun b => b.natural + b.margin.across).foldl greater 0

/-- The width of a box. -/
def boxWidth (c : Column) (b : FlowBox) : Float32 :=
  if c.alignOf b = .stretch ∧ b.width = none then
    b.widthLimits.clamp (c.line - b.margin.across)
  else b.natural

/-- A box before space is shared out. -/
def starting (c : Column) (b : FlowBox) : FlowRun :=
  let least := b.heightLimits.least.getD 0
  let hypothetical := Limits.clamp ⟨some least, b.heightLimits.greatest⟩ b.base
  let width := c.boxWidth b
  { box := b, base := b.base, least, hypothetical, height := hypothetical, frozen := false
    natural := b.natural, width, gap := 0
    shift := (c.alignOf b).shift (c.line - (width + b.margin.across)), edge := 0 }

/-- The boxes in the flow before space is shared out. -/
def startingItems (c : Column) : List FlowRun := c.inFlow.map c.starting

/-- Whether the boxes leave space. -/
def grows (c : Column) : Bool := c.growing c.startingItems

/-- The space that is left or missing. -/
def space (c : Column) : Float32 :=
  c.innerHeight - total (c.startingItems.map fun i => i.outer i.base)

/-- All shares in the space. -/
def shares (c : Column) : Float32 := total (c.startingItems.map (·.share c.grows))

/-- A box when all the space has been shared out in one round. -/
def settled (c : Column) (b : FlowBox) : FlowRun :=
  (c.starting b).settled c.grows c.space c.shares

/-- The boxes in the flow when all the space has been shared out. -/
def settledItems (c : Column) : List FlowRun := c.inFlow.map c.settled

/-- The boxes in the flow at their places. -/
def items (c : Column) : List FlowRun :=
  FlowRun.stacked (fun k => c.justify.gap (c.free c.settledItems) c.settledItems.length k) 0
    c.padding.top c.settledItems

/-- The frames of boxes, given what the passes settle about those in the flow. -/
def framesOf (c : Column) : List ColumnBox → List FlowRun → List Box
  | [], _ => []
  | .fixed b :: boxes, items =>
    (b.frame (c.outerWidth c.line) c.outerHeight).unsignedZeros :: c.framesOf boxes items
  | .flow _ :: boxes, i :: items => (c.flowFrame i).unsignedZeros :: c.framesOf boxes items
  | .flow _ :: _, [] => []

/-- The frames that the engine gives the boxes of a column. -/
def flexFrames (c : Column) : List Box := c.framesOf c.boxes c.items

variable {c : Column} {i : FlowRun}

/-- What is settled about a box is read off the box, but for its place. -/
theorem eq_of_mem_items (hi : i ∈ c.items) :
    i = { c.settled i.box with gap := i.gap, edge := i.edge } := by
  obtain ⟨j, hj, hplaced⟩ := FlowRun.exists_of_mem_stacked hi
  obtain ⟨b, -, rfl⟩ := List.mem_map.mp hj
  have hbox : i.box = b := congrArg FlowRun.box hplaced
  rw [hbox]
  exact hplaced

/-- What does not depend on the place of a box is settled before places are. -/
theorem map_items {α : Type} {f : FlowRun → α}
    (hf : ∀ (i : FlowRun) (gap edge : Float32), f { i with gap, edge } = f i) :
    c.items.map f = c.settledItems.map f :=
  FlowRun.map_stacked hf

/-- No pass after the first ones changes whether the boxes leave space. -/
theorem growing_items : c.growing c.items = c.grows := by
  unfold grows growing startingItems
  rw [map_items fun _ _ _ => rfl, settledItems, List.map_map, List.map_map]
  rfl

/-- The places of boxes do not change the space that they leave. -/
theorem free_items : c.free c.items = c.free c.settledItems := by
  unfold free
  rw [map_items fun _ _ _ => rfl]

/-- Every box gets a place. -/
theorem length_items : c.items.length = c.settledItems.length := by
  have hmap := congrArg List.length (map_items (c := c) (f := FlowRun.box) fun _ _ _ => rfl)
  rwa [List.length_map, List.length_map] at hmap

/-- The boxes in the flow are laid out in their order. -/
theorem map_box_items : c.items.map (·.box) = c.inFlow := by
  rw [map_items fun _ _ _ => rfl, settledItems, List.map_map]
  exact List.map_id c.inFlow

/-- The line of a column without a width is as wide as the widest box. -/
theorem line_eq_widest (hwidth : c.width = none) :
    c.line = (c.items.map fun i => i.natural + i.box.margin.across).foldl greater 0 := by
  unfold line
  rw [hwidth, map_items fun _ _ _ => rfl, settledItems, List.map_map]
  rfl

/-- A box that is laid out is one of the column, so its measures are in range. -/
theorem inRange_of_mem_items (hc : c.InRange) (hi : i ∈ c.items) :
    (ColumnBox.flow i.box).InRange := by
  have hbox : i.box ∈ c.inFlow := map_box_items ▸ List.mem_map_of_mem hi
  obtain ⟨box, hmem, hflow⟩ := List.mem_filterMap.mp hbox
  cases box with
  | fixed _ => cases hflow
  | flow b =>
    obtain rfl := Option.some.inj hflow
    exact hc.boxes _ hmem

/-- The least height of a box without a limit is zero, which is in the range of heights. -/
theorem clamped_of_mem_items (hc : c.InRange) (hi : i ∈ c.items) : i.Clamped := by
  have hleast : i.least = i.box.heightLimits.least.getD 0 :=
    congrArg FlowRun.least (eq_of_mem_items hi)
  refine ⟨fun least hsome => ?_, fun hnone => ?_, ?_⟩
  · rw [hleast, hsome]
    rfl
  · have hzero : i.least = 0 := by
      rw [hleast, hnone]
      rfl
    rw [hzero]
    exact ⟨by decide, fun height hheight =>
      ((inRange_of_mem_items hc hi).2.1 height hheight).zero_le⟩
  · rw [eq_of_mem_items hi]
    rfl

/-- The engine follows the passes for the boxes in the flow. -/
theorem follows_items (hc : c.InRange) : c.Follows c.line c.items where
  base := by
    intro i hi size hsize
    have hbase : i.base = i.box.base := congrArg FlowRun.base (eq_of_mem_items hi)
    rw [hbase, FlowBox.base, hsize]
    rfl
  limits _ hi := clamped_of_mem_items hc hi
  shared := by
    rw [growing_items]
    refine FlowRun.sharedOut_settled c.space c.shares fun i hi => ?_
    rw [eq_of_mem_items hi]
    rfl
  natural := by
    intro i hi width hwidth
    have hnatural : i.natural = i.box.natural := congrArg FlowRun.natural (eq_of_mem_items hi)
    rw [hnatural, FlowBox.natural, hwidth]
    rfl
  definite := by
    intro width hwidth
    unfold line
    rw [hwidth]
  widest := line_eq_widest
  stretched i hi hstretch hnone :=
    (congrArg FlowRun.width (eq_of_mem_items hi)).trans (if_pos ⟨hstretch, hnone⟩)
  unstretched i hi hkept := by
    have hwidth : i.width = c.boxWidth i.box := congrArg FlowRun.width (eq_of_mem_items hi)
    have hnatural : i.natural = i.box.natural := congrArg FlowRun.natural (eq_of_mem_items hi)
    rw [hwidth, boxWidth, if_neg hkept, hnatural]
  gap := by
    intro k i hi
    rw [FlowRun.gap_of_getElem?_stacked hi, free_items, length_items, Nat.zero_add]
  shift := by
    intro i hi
    rw [eq_of_mem_items hi]
    rfl
  first _ hi := FlowRun.edge_of_mem_head?_stacked hi
  next := FlowRun.isChain_stacked

end Column

/-- The engine gives a box out of the flow a frame that fits it. -/
theorem FixedBox.fits_frame (b : FixedBox) (width height : Float32) :
    b.Fits width height (b.frame width height) := by
  constructor <;> intro x hx <;> simp only [frame] at hx ⊢ <;> rw [hx] <;> rfl

/-- The frames of the engine are those of what is settled about the boxes. -/
theorem Column.places_framesOf (c : Column) (boxes : List ColumnBox) (items : List FlowRun)
    (h : items.map (·.box) = ColumnBox.inFlow boxes) :
    c.Places c.line boxes items (c.framesOf boxes items) := by
  induction boxes generalizing items with
  | nil =>
    obtain rfl := List.map_eq_nil_iff.mp h
    exact .nil
  | cons box boxes ih =>
    cases box with
    | fixed b => exact .fixed (b.fits_frame _ _) (ih items h)
    | flow b =>
      cases items with
      | nil => cases h
      | cons i items =>
        obtain ⟨hbox, hrest⟩ := List.cons_eq_cons.mp h
        exact .flow hbox (ih items hrest)

/-- The engine lays out columns by the passes. -/
theorem laysOutColumns_flexFrames : LaysOutColumns Column.flexFrames := by
  intro c hc
  exact ⟨c.line, c.items, Column.follows_items hc, c.places_framesOf _ _ Column.map_box_items⟩

/-- In a column that is too low for them, boxes without shares of their own are squashed, and only a
box that is given none keeps its height. -/
example :
    (Column.flexFrames
      { width := some 4, height := 3, padding := .zero
        boxes := [.flow { height := some 2 }, .flow { height := some 1, shrink := 0 },
          .flow { height := some 2 }] }).map (fun f => (f.y, f.h)) =
      [(0, 1), (1, 1), (2, 1)] := by
  decide +kernel

end Folio
