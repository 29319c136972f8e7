import Folio.Proofs.Deck.Engine
import Folio.Proofs.Deck.Finiteness

/-!
# Layout of cards

What the passes of column layout make of the column of a card. The box of a slot in the flow has a
height that no share can change and is as wide as the line unless it has a width; all the space that
is left lies below the last one, and what is missing is not made up for. So the edges of the boxes
run down the stack of the slots, and any engine that follows the passes gives the frames of the
stack.
-/

namespace Folio

open Folio.Number

/-- Lengths that differ in the sign of a zero are equal without it. -/
theorem unsignedZero_eq {x y : Float32} (h : Same x y) : unsignedZero x = unsignedZero y := by
  rcases same_iff.mp h with rfl | ⟨hx, hy⟩
  · rfl
  · unfold unsignedZero
    rw [if_pos (isZero_iff.mp hx), if_pos (isZero_iff.mp hy)]

/-- Without the sign of a zero a length is the same. -/
theorem same_unsignedZero (x : Float32) : Same (unsignedZero x) x := by
  unfold unsignedZero
  split
  · rename_i hx
    exact same_iff.mpr (.inr ⟨⟨_, unpack_zero⟩, isZero_iff.mpr hx⟩)
  · exact .refl x

/-- Frames whose measures differ in signs of zeros are equal without them. -/
theorem Box.unsignedZeros_eq {a b : Box} (hx : Same a.x b.x) (hy : Same a.y b.y)
    (hw : Same a.w b.w) (hh : Same a.h b.h) : a.unsignedZeros = b.unsignedZeros := by
  unfold Box.unsignedZeros
  rw [unsignedZero_eq hx, unsignedZero_eq hy, unsignedZero_eq hw, unsignedZero_eq hh]

/-- Without the signs of zeros the measures of a frame are the same. -/
theorem Box.same_unsignedZeros (b : Box) :
    Same b.unsignedZeros.x b.x ∧ Same b.unsignedZeros.y b.y ∧ Same b.unsignedZeros.w b.w ∧
      Same b.unsignedZeros.h b.h :=
  ⟨same_unsignedZero _, same_unsignedZero _, same_unsignedZero _, same_unsignedZero _⟩

/-- The greater of a length and zero is zero, or the length if that is a number not below zero. -/
theorem greater_zero_cases (x : Float32) :
    greater x 0 = 0 ∨ greater x 0 = x ∧ x.isNaN = false ∧ ¬x < 0 := by
  unfold greater
  split
  · exact .inl rfl
  · rename_i hnumber
    rw [if_neg (by decide)]
    split
    · exact .inl rfl
    · rename_i hx
      exact .inr ⟨rfl, Bool.eq_false_iff.mpr hnumber, hx⟩

/-- Bringing a length up to zero twice changes it once. -/
theorem greater_zero_greater_zero (x : Float32) : greater (greater x 0) 0 = greater x 0 := by
  rcases greater_zero_cases x with hzero | ⟨hx, -⟩
  · rw [hzero]
    decide
  · rw [hx, hx]

/-- A length brought up to zero is not negative. -/
theorem zero_le_greater_zero (x : Float32) : 0 ≤ greater x 0 := by
  rcases greater_zero_cases x with hzero | ⟨hx, hnumber, hlt⟩
  · rw [hzero]
    decide
  · rw [hx]
    exact zero_le_of_not_lt hnumber hlt

namespace Slot

/-- Where a stack that ends at an offset ends with one more slot. -/
def advance (offset : Float32) (s : Slot) : Float32 :=
  match s.placement with
  | .flow marginTop => offset + (marginTop + s.height)
  | .absolute _ _ => offset

/-- The frame of a slot below a stack that ends at an offset. -/
def frameAt (left inner cellWidth offset : Float32) (s : Slot) : Box :=
  match s.placement with
  | .flow marginTop => ⟨left, offset + marginTop, s.width.getD inner, s.height⟩
  | .absolute x y => ⟨x, y, s.width.getD (greater (cellWidth - x) 0), s.height⟩

variable {left inner cellWidth : Float32}

/-- The first slot lies where the stack ends, and the others lie below the stack with it. -/
theorem stack_cons (offset : Float32) (s : Slot) (rest : List Slot) :
    stack left inner cellWidth offset (s :: rest) =
      s.frameAt left inner cellWidth offset ::
        stack left inner cellWidth (s.advance offset) rest := by
  simp only [stack, frameAt, advance]
  cases s.placement with
  | flow marginTop => rfl
  | absolute x y => rfl

/-- A slot lies below the stack of the slots before it. -/
theorem getElem?_stack (offset : Float32) (slots : List Slot) (k : Nat) :
    (stack left inner cellWidth offset slots)[k]? =
      slots[k]?.map (frameAt left inner cellWidth ((slots.take k).foldl advance offset)) := by
  induction slots generalizing offset k with
  | nil => rfl
  | cons s rest ih =>
    rw [stack_cons]
    cases k with
    | zero => rfl
    | succ k => exact ih _ k

variable {s : Slot}

theorem frameAt_flow {marginTop : Float32} (hplacement : s.placement = .flow marginTop)
    (offset : Float32) : s.frameAt left inner cellWidth offset =
      ⟨left, offset + marginTop, s.width.getD inner, s.height⟩ := by
  unfold frameAt
  rw [hplacement]

theorem frameAt_absolute {x y : Float32} (hplacement : s.placement = .absolute x y)
    (offset : Float32) : s.frameAt left inner cellWidth offset =
      ⟨x, y, s.width.getD (greater (cellWidth - x) 0), s.height⟩ := by
  unfold frameAt
  rw [hplacement]

theorem columnBox_flow {marginTop : Float32} (hplacement : s.placement = .flow marginTop) :
    s.columnBox cellWidth = .flow (s.flowBox marginTop) := by
  unfold columnBox
  rw [hplacement]

theorem advance_flow {marginTop : Float32} (hplacement : s.placement = .flow marginTop)
    (offset : Float32) : s.advance offset = offset + (marginTop + s.height) := by
  unfold advance
  rw [hplacement]

theorem columnBox_absolute {x y : Float32} (hplacement : s.placement = .absolute x y) :
    s.columnBox cellWidth = .fixed (s.fixedBox cellWidth x y) := by
  unfold columnBox
  rw [hplacement]

/-- No pass can change the height of the box of a slot in the flow. -/
theorem rigid_flowBox (s : Slot) (hs : s.InRange) (marginTop : Float32) :
    (s.flowBox marginTop).Rigid s.height :=
  ⟨hs.height.2, rfl, rfl, rfl, rfl, rfl⟩

theorem advance_absolute {x y : Float32} (hplacement : s.placement = .absolute x y)
    (offset : Float32) : s.advance offset = offset := by
  unfold advance
  rw [hplacement]

end Slot

namespace CardTemplate

variable {card : CardTemplate}

/-- The default width of a slot at an offset is never negative, and neither is one of its own. -/
theorem zero_le_fixedWidth {s : Slot} (hs : s.InRange) (rest : Float32) :
    0 ≤ s.width.getD (greater rest 0) := by
  cases hw : s.width with
  | none => exact zero_le_greater_zero rest
  | some width => exact (hs.width width hw).2

/-- The box of a slot whose measures are in range is in range. -/
theorem columnBox_inRange {s : Slot} (hs : s.InRange) (w : Float32) :
    (s.columnBox w).InRange := by
  have hheight : ∀ height ∈ some s.height, IsSize height := by
    rintro height ⟨⟩
    exact isSize_iff.mpr hs.height
  have hzero : IsSize 0 := by decide
  cases hplacement : s.placement with
  | flow marginTop =>
    rw [Slot.columnBox_flow hplacement]
    have hmargin : (Insets.mk marginTop 0 0 0).IsFinite := by
      refine List.forall_mem_cons.mpr ⟨hs.margin marginTop hplacement, ?_⟩
      change ∀ m ∈ [(0 : Float32), 0, 0], m.isFinite = true
      decide
    exact ⟨fun width hw => isSize_iff.mpr (hs.width width hw), hheight, ⟨nofun, nofun⟩,
      ⟨nofun, nofun⟩, hmargin, nofun, hzero, hzero⟩
  | absolute x y =>
    rw [Slot.columnBox_absolute hplacement]
    obtain ⟨hx, hy⟩ := hs.offset x y hplacement
    refine ⟨?_, ?_, hheight, ?_⟩
    · change ∀ d ∈ [x, y], d.isFinite = true
      exact List.forall_mem_cons.mpr ⟨hx, List.forall_mem_singleton.mpr hy⟩
    · rintro width ⟨⟩
      exact zero_le_fixedWidth hs (w - x)
    · change ∀ m ∈ [(0 : Float32), 0, 0, 0], m.isFinite = true
      decide

/-- The column of a card that validation accepts is in range, in a cell of any size. -/
theorem column_inRange {w h : Float32} (hvalid : card.validate = .ok ()) (hw : IsSize w)
    (hh : IsSize h) : (card.column w h).InRange where
  width := by
    rintro width ⟨⟩
    exact hw
  height := hh
  padding := by
    have hrange := validate_eq_ok_iff.mp hvalid
    change ∀ p ∈ [card.padding.top, card.padding.right, card.padding.bottom, card.padding.left],
      IsSize p
    simp only [List.forall_mem_cons, isSize_iff]
    exact ⟨hrange.top, hrange.right, hrange.bottom, hrange.left, List.forall_mem_nil _⟩
  boxes := by
    intro b hb
    obtain ⟨s, hs, rfl⟩ := List.mem_map.mp hb
    exact columnBox_inRange ((validate_eq_ok_iff.mp hvalid).slots s hs) w

/-- Where the stack of the slots before a position ends. -/
def offsetBefore (card : CardTemplate) (k : Nat) : Float32 :=
  (card.slots.take k).foldl Slot.advance card.padding.top

variable {w h : Float32}

section Passes

variable {line : Float32} {items : List FlowRun} (hfollows : (card.column w h).Follows line items)
  {i : FlowRun} (hi : i ∈ items) {s : Slot} (hs : s.InRange) {marginTop : Float32}
  (hbox : i.box = s.flowBox marginTop)

include hbox

/-- The box of a slot is stretched. -/
theorem alignOf_eq_stretch : (card.column w h).alignOf i.box = .stretch := by
  rw [hbox]
  rfl

/-- The box of a slot has no margin but the one above it. -/
theorem margin_eq : i.box.margin = ⟨marginTop, 0, 0, 0⟩ := by
  rw [hbox]
  rfl

include hfollows hi

/-- No space is put above the box of a slot, and the box is not moved from the left side. -/
theorem gap_and_shift_eq_zero : i.gap = 0 ∧ i.shift = 0 :=
  ⟨hfollows.gap_eq_zero hi rfl, hfollows.shift_eq_zero hi (alignOf_eq_stretch hbox)⟩

include hs

/-- The box of a slot keeps its height, however overfull the card is. -/
theorem greater_height_eq : greater i.height 0 = s.height := by
  have hrigid : i.box.Rigid s.height := by
    rw [hbox]
    exact s.rigid_flowBox hs marginTop
  rw [hfollows.height_eq hi hrigid, greater_eq_left hs.height.2]

/-- The box of a slot is as wide as the card inside its padding, unless it has a width. -/
theorem greater_width_eq : greater i.width 0 = s.width.getD (card.padding.innerWidth w) := by
  have hwidth : i.box.width = s.width := by
    rw [hbox]
    rfl
  have hlimits : i.box.widthLimits = {} := by
    rw [hbox]
    rfl
  cases hsome : s.width with
  | some width =>
    have hsize : 0 ≤ width := (hs.width width hsome).2
    rw [hfollows.width_eq hi (hwidth.trans hsome) hsize hlimits, greater_eq_left hsize,
      Option.getD_some]
  | none =>
    have hacross : i.box.margin.across = 0 := by
      have hsides : (0 : Float32) + 0 = 0 := by decide
      rw [margin_eq hbox]
      exact hsides
    have hline : line = card.padding.innerWidth w := hfollows.definite w rfl
    rw [hfollows.width_eq_line hi (alignOf_eq_stretch hbox) (hwidth.trans hsome) hlimits, hacross,
      sub_zero, hline, Option.getD_none]
    -- what is left inside the padding is not negative already
    exact greater_zero_greater_zero _

variable (hplacement : s.placement = .flow marginTop) {offset : Float32}
  (hedge : Same i.edge offset)

include hplacement hedge

/-- A box whose edge is where a stack ends has the frame of its slot below the stack. -/
theorem unsignedZeros_flowFrame : ((card.column w h).flowFrame i).unsignedZeros =
    (s.frameAt card.padding.left (card.padding.innerWidth w) w offset).unsignedZeros := by
  obtain ⟨hgap, hshift⟩ := gap_and_shift_eq_zero hfollows hi hbox
  rw [Slot.frameAt_flow hplacement]
  refine Box.unsignedZeros_eq ?_ ?_ ?_ ?_
  · change Same (card.padding.left + i.shift + i.box.margin.left) card.padding.left
    rw [hshift, margin_eq hbox]
    exact ((same_add_zero _).add_right 0).trans (same_add_zero _)
  · change Same (i.edge + i.gap + i.box.margin.top) (offset + marginTop)
    rw [hgap, margin_eq hbox]
    exact ((same_add_zero _).trans hedge).add_right marginTop
  · exact .inl (greater_width_eq hfollows hi hs hbox)
  · exact .inl (greater_height_eq hfollows hi hs hbox)

/-- Such a box ends where the stack with its slot ends. -/
theorem same_bottom_advance : Same i.bottom (s.advance offset) := by
  obtain ⟨hgap, -⟩ := gap_and_shift_eq_zero hfollows hi hbox
  have habove : Same (0 + (marginTop + 0)) marginTop :=
    ((same_add_zero marginTop).add_left 0).trans (same_zero_add marginTop)
  unfold FlowRun.bottom
  rw [Slot.advance_flow hplacement, greater_height_eq hfollows hi hs hbox, hgap,
    margin_eq hbox]
  exact hedge.add (habove.add_right s.height)

end Passes

/-- A box out of the flow gets the frame that its slot has beside any stack. -/
theorem unsignedZeros_of_fits {s : Slot} (hs : s.InRange) {x y : Float32}
    (hplacement : s.placement = .absolute x y) {width height : Float32} {f : Box}
    (hfits : (s.fixedBox w x y).Fits width height f) (left inner offset : Float32) :
    f.unsignedZeros = (s.frameAt left inner w offset).unsignedZeros := by
  have hx : f.x = x + 0 := hfits.x _ rfl
  have hy : f.y = y + 0 := hfits.y _ rfl
  have hwidth := hfits.w _ rfl
  have hheight := hfits.h _ rfl
  rw [greater_eq_left (zero_le_fixedWidth hs (w - x))] at hwidth
  rw [greater_eq_left hs.height.2] at hheight
  rw [Slot.frameAt_absolute hplacement]
  refine Box.unsignedZeros_eq ?_ ?_ (.inl hwidth) (.inl hheight)
  · rw [hx]
    exact same_add_zero x
  · rw [hy]
    exact same_add_zero y

/-- The edges of the boxes of slots run down their stack, but for the signs of zeros. The induction
is on the slots that are left, and the edge of the first box that is left is where the stack of the
slots before it ends. -/
theorem eq_stack_of_places {line : Float32} {all : List FlowRun}
    (hfollows : (card.column w h).Follows line all) {slots : List Slot}
    (hslots : ∀ s ∈ slots, s.InRange) {items : List FlowRun} {frames : List Box}
    (hplaces : (card.column w h).Places line (slots.map (Slot.columnBox w)) items frames)
    (hitems : items ⊆ all) (hnext : items.IsChain fun i j => j.edge = i.bottom) {offset : Float32}
    (hfirst : ∀ i ∈ items.head?, Same i.edge offset) :
    frames = (Slot.stack card.padding.left (card.padding.innerWidth w) w offset slots).map
      Box.unsignedZeros := by
  induction slots generalizing items frames offset with
  | nil =>
    cases hplaces
    rfl
  | cons s rest ih =>
    obtain ⟨hs, hrest⟩ := List.forall_mem_cons.mp hslots
    rw [List.map_cons] at hplaces
    rw [Slot.stack_cons, List.map_cons]
    cases hplacement : s.placement with
    | flow marginTop =>
      rw [Slot.columnBox_flow hplacement] at hplaces
      cases hplaces with
      | @flow _ items _ _ i hbox hplaces =>
        obtain ⟨hi, hlater⟩ := List.cons_subset.mp hitems
        have hedge : Same i.edge offset := hfirst i rfl
        have hbottom := same_bottom_advance hfollows hi hs hbox hplacement hedge
        refine congrArg₂ List.cons
          (unsignedZeros_flowFrame hfollows hi hs hbox hplacement hedge)
          (ih hrest hplaces hlater hnext.tail fun j hj => ?_)
        rw [hnext.rel_head? hj]
        exact hbottom
    | absolute x y =>
      rw [Slot.columnBox_absolute hplacement] at hplaces
      rw [Slot.advance_absolute hplacement]
      cases hplaces with
      | fixed hfits hplaces =>
        exact congrArg₂ List.cons (unsignedZeros_of_fits hs hplacement hfits _ _ _)
          (ih hrest hplaces hitems hnext hfirst)

/-- The passes leave the column of a card no choice. -/
theorem eq_frames_of_laidOut (hvalid : card.validate = .ok ()) {frames : List Box}
    (hframes : (card.column w h).LaidOut frames) : frames = card.frames w := by
  obtain ⟨line, items, hfollows, hplaces⟩ := hframes
  exact eq_stack_of_places hfollows (validate_eq_ok_iff.mp hvalid).slots hplaces
    (List.Subset.refl items) hfollows.next fun i hi => .inl (hfollows.first i hi)

/-- Any engine that follows the passes gives a card the frames of the stack. -/
theorem framesBy_eq {engine : Column → List Box} (hengine : LaysOutColumns engine)
    (hvalid : card.validate = .ok ()) (hw : IsSize w) (hh : IsSize h) :
    card.framesBy engine w h = .ok (card.frames w) := by
  unfold framesBy
  rw [hvalid]
  exact congrArg Except.ok (eq_frames_of_laidOut hvalid (hengine _ (column_inRange hvalid hw hh)))

/-- A card that validation accepts gets the frames of the stack. -/
theorem slotFrames_eq (hvalid : card.validate = .ok ()) :
    card.slotFrames w = .ok (card.frames w) := by
  unfold slotFrames
  rw [hvalid]
  rfl

/-- The frame of a slot is the one below the stack of the slots before it. -/
theorem getElem?_frames (card : CardTemplate) (w : Float32) (k : Nat) :
    (card.frames w)[k]? = card.slots[k]?.map fun s => (s.frameAt card.padding.left
      (card.padding.innerWidth w) w (card.offsetBefore k)).unsignedZeros := by
  unfold frames offsetBefore
  rw [List.getElem?_map, Slot.getElem?_stack, Option.map_map]
  rfl

/-- An engine that follows the rules gives every slot of a card a frame: of its own height and its
own width if it has one, and at its offset or below the slots that flow before it. The slots that
flow without a width share one that depends on the cell and the side paddings alone. -/
theorem framesBy_stacked : ∃ inner : Float32 → Float32 → Float32 → Float32,
    ∀ {engine : Column → List Box}, LaysOutColumns engine →
    ∀ {card : CardTemplate} {w h : Float32}, card.validate = .ok () → IsSize w → IsSize h →
    ∃ frames, card.framesBy engine w h = .ok frames ∧ card.slotFrames w = .ok frames ∧
      frames.length = card.slots.length ∧
      ∀ (k : Nat) (s : Slot) (frame : Box), card.slots[k]? = some s → frames[k]? = some frame →
        Same frame.h s.height ∧
        (∀ width, s.width = some width → Same frame.w width) ∧
        match s.placement with
        | .flow marginTop =>
          Same frame.x card.padding.left ∧ Same frame.y (card.offsetBefore k + marginTop) ∧
            (s.width = none → frame.w = inner w card.padding.left card.padding.right)
        | .absolute x y =>
          Same frame.x x ∧ Same frame.y y ∧
            (s.width = none → Same frame.w (greater (w - x) 0)) := by
  refine ⟨fun w left right => unsignedZero (Insets.innerWidth ⟨0, right, 0, left⟩ w), ?_⟩
  intro engine hengine card w h hvalid hw hh
  refine ⟨card.frames w, framesBy_eq hengine hvalid hw hh, slotFrames_eq hvalid,
    length_slotFrames (slotFrames_eq hvalid), ?_⟩
  intro k s frame hs hframe
  rw [getElem?_frames, hs] at hframe
  obtain rfl := Option.some.inj hframe
  cases hplacement : s.placement with
  | flow marginTop =>
    dsimp only
    rw [Slot.frameAt_flow hplacement]
    obtain ⟨hx, hy, hwidth, hheight⟩ := Box.same_unsignedZeros
      ⟨card.padding.left, card.offsetBefore k + marginTop,
        s.width.getD (card.padding.innerWidth w), s.height⟩
    refine ⟨hheight, ?_, hx, hy, ?_⟩
    · intro width hsome
      simpa only [hsome, Option.getD_some] using hwidth
    · intro hnone
      simp only [hnone]
      rfl
  | absolute x y =>
    dsimp only
    rw [Slot.frameAt_absolute hplacement]
    obtain ⟨hx, hy, hwidth, hheight⟩ := Box.same_unsignedZeros
      ⟨x, y, s.width.getD (greater (w - x) 0), s.height⟩
    refine ⟨hheight, ?_, hx, hy, ?_⟩
    · intro width hsome
      simpa only [hsome, Option.getD_some] using hwidth
    · intro hnone
      simpa only [hnone, Option.getD_none] using hwidth

/-- A card that is too low for its slots and too narrow for one of them. -/
def overfull : CardTemplate :=
  { padding := ⟨0.25, 0.5, 0, 0.5⟩
    slots := [Slot.label 0.5, (Slot.field "status" 0.25).placed 5.5 (-0.25),
      ((Slot.field "text" 2).flowing (-0.125)).ofWidth 0.75, Slot.literal "more" 0.5] }

/-- The slot that lies outside of the card has no width left, and the tall one after it keeps its
height and overlaps the one above by its margin. -/
theorem framesBy_stacked_overfull :
    LaysOutColumns Column.flexFrames ∧ overfull.validate = .ok () ∧ IsSize 2 ∧ IsSize 1 ∧
      ∃ frames, overfull.framesBy Column.flexFrames 2 1 = .ok frames ∧
        overfull.slotFrames 2 = .ok frames ∧ frames.length = 4 ∧
        (∀ frame : Box, frames[1]? = some frame →
          Same frame.x 5.5 ∧ Same frame.y (-0.25) ∧ Same frame.w 0 ∧ Same frame.h 0.25) ∧
        ∀ frame : Box, frames[2]? = some frame →
          Same frame.x 0.5 ∧ Same frame.y 0.625 ∧ Same frame.w 0.75 ∧ Same frame.h 2 := by
  have hvalid : overfull.validate = .ok () := by decide +kernel
  have hw : IsSize 2 := by decide
  have hh : IsSize 1 := by decide
  obtain ⟨inner, hframes⟩ := framesBy_stacked
  obtain ⟨frames, hframes, hslots, hlength, hat⟩ :=
    hframes laysOutColumns_flexFrames hvalid hw hh
  refine ⟨laysOutColumns_flexFrames, hvalid, hw, hh, frames, hframes, hslots, hlength, ?_, ?_⟩
  · intro frame hframe
    obtain ⟨hheight, _, hx, hy, hwidth⟩ := hat 1 _ frame rfl hframe
    have hnone : greater (2 - 5.5) 0 = 0 := by decide
    exact ⟨hx, hy, hnone ▸ hwidth rfl, hheight⟩
  · intro frame hframe
    obtain ⟨hheight, hwidth, hx, hy, _⟩ := hat 2 _ frame rfl hframe
    have hoffset : overfull.offsetBefore 2 + -0.125 = 0.625 := by decide +kernel
    exact ⟨hx, hoffset ▸ hy, hwidth 0.75 rfl, hheight⟩

end CardTemplate

end Folio
