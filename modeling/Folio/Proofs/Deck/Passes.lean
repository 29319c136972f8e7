import Folio.Deck.Column
import Folio.Proofs.Number.Zero
import Folio.Proofs.Outcome
import Folio.Proofs.Validation

/-!
# Passes of column layout

What an engine of flexible box layout does with a column, pass by pass. Each box in the flow starts
from a base height and is brought within its limits; boxes that have a share in the space that is
left or missing are resized in rounds, until every height is frozen; the line of boxes gets its
width, and boxes are stretched to it; the space that is still left is put above, below or between
the boxes, which then follow one another from the top padding down. Boxes out of the flow are put at
their distances from the edges. What the passes leave open, such as the size of the contents of a
box or the order in which shares are added up, is left open here.

Boxes whose heights no share can change keep them, whatever height the column has and whichever
other boxes it holds.
-/

namespace Folio

open Folio.Number

/-- The lesser of two lengths; of a length and what is not a number the length. -/
def lesser (a b : Float32) : Float32 :=
  if a.isNaN then b else if b.isNaN then a else if b < a then b else a

/-- A size brought within limits; where they exclude one another the least size counts. -/
def Limits.clamp (l : Limits) (x : Float32) : Float32 :=
  let below := (l.greatest.map (lesser x)).getD x
  (l.least.map (greater below)).getD below

/-- The space on the left and on the right. -/
def Insets.across (i : Insets) : Float32 := i.left + i.right

/-- The space above and below. -/
def Insets.along (i : Insets) : Float32 := i.top + i.bottom

/-- Lengths added up in their order. -/
def total (lengths : List Float32) : Float32 := lengths.foldl (· + ·) 0

/-- What the passes settle about a box in the flow. -/
structure FlowRun where
  /-- The box. -/
  box : FlowBox
  /-- The height that shares are counted from. -/
  base : Float32
  /-- The least height. -/
  least : Float32
  /-- The base height within the limits of the height. -/
  hypothetical : Float32
  /-- The height, as far as space has been shared out. -/
  height : Float32
  /-- Whether the height is settled. -/
  frozen : Bool
  /-- The width before the box is stretched. -/
  natural : Float32
  /-- The width. -/
  width : Float32
  /-- The part of the space left that lies right above the box. -/
  gap : Float32
  /-- How far the box is moved from the left side of the line. -/
  shift : Float32
  /-- Where the part of the column begins that the box takes up with its margin. -/
  edge : Float32

namespace FlowRun

/-- The limits of the height, with the least height. -/
def heightLimits (i : FlowRun) : Limits := ⟨some i.least, i.box.heightLimits.greatest⟩

/-- A height with the margin of the box. -/
def outer (i : FlowRun) (height : Float32) : Float32 := height + i.box.margin.along

/-- Where the part of the column ends that the box takes up with its margin. -/
def bottom (i : FlowRun) : Float32 :=
  i.edge + (i.gap + i.box.margin.along + greater i.height 0)

/-- The base height is that of the basis, or else the height of the box; a box with neither has one
by its contents. -/
def Based (i : FlowRun) : Prop :=
  ∀ size, i.box.basis.or i.box.height = some size → i.base = greater size 0

/-- The least height is the one that is asked for; otherwise the contents have one, which is never
more than the height of the box. Between it and the greatest height lies the hypothetical height. -/
structure Clamped (i : FlowRun) : Prop where
  asked : ∀ least, i.box.heightLimits.least = some least → i.least = least
  contents : i.box.heightLimits.least = none →
    0 ≤ i.least ∧ ∀ height, i.box.height = some height → i.least ≤ height
  hypothetical : i.hypothetical = i.heightLimits.clamp i.base

/-- The share of a box in the space that is left, or in the space that is missing: a low box gives up
less of it than a high one. -/
def share (growing : Bool) (i : FlowRun) : Float32 :=
  if growing then i.box.grow else i.base * i.box.shrink

/-- A box before space is shared out. It is frozen if it has no share, or if its limits have already
moved it further than its share could. -/
def begun (growing : Bool) (i : FlowRun) : FlowRun :=
  { i with
    height := i.hypothetical
    frozen := (if growing then i.box.grow else i.box.shrink) == 0 ||
      if growing then i.hypothetical < i.base else i.base < i.hypothetical }

/-- The height of a box with its part of some space; where there is no space, no part is taken. -/
def resized (growing : Bool) (space shares : Float32) (i : FlowRun) : Float32 :=
  i.heightLimits.clamp
    (if space == 0 then i.base else i.base + space * (i.share growing / shares))

/-- A round of sharing out leaves a frozen box alone. Any other box gets its part of the space, within
its limits, and may be frozen then. -/
def Resized (growing : Bool) (space shares : Float32) (i j : FlowRun) : Prop :=
  if i.frozen then j = i
  else ∃ frozen, j = { i with height := i.resized growing space shares, frozen }

end FlowRun

/-- Space is shared out in rounds, as long as a box is not frozen. How much space a round shares out,
and which boxes it freezes, is left open. -/
inductive SharedOut (growing : Bool) : List FlowRun → List FlowRun → Prop
  | done {items : List FlowRun} : (∀ i ∈ items, i.frozen = true) → SharedOut growing items items
  | round {before after last : List FlowRun} (space shares : Float32) :
    (∃ i ∈ before, i.frozen = false) →
    List.Forall₂ (FlowRun.Resized growing space shares) before after →
    SharedOut growing after last → SharedOut growing before last

/-- The space above a box, of the space that boxes leave. -/
def MainAlign.gap (free : Float32) (count position : Nat) : MainAlign → Float32
  | .start => 0
  | .center => if position = 0 then free / 2 else 0
  | .finish => if position = 0 then free else 0
  | .between => if position = 0 then 0 else greater free 0 / Length.ofCount (count - 1)

/-- How far a box is moved that leaves some space beside itself. -/
def CrossAlign.shift (free : Float32) : CrossAlign → Float32
  | .start | .stretch => 0
  | .center => free / 2
  | .finish => free

namespace Column

/-- The height inside the padding; a column is at least as high as its padding. -/
def innerHeight (c : Column) : Float32 := greater c.height c.padding.along - c.padding.along

/-- The height of a column with its padding. -/
def outerHeight (c : Column) : Float32 := greater c.height c.padding.along

/-- The width of a column with its padding, given the width of the line of boxes. -/
def outerWidth (c : Column) (line : Float32) : Float32 :=
  (c.width.map (greater · c.padding.across)).getD (line + c.padding.across)

/-- How a box lies between the sides. -/
def alignOf (c : Column) (b : FlowBox) : CrossAlign := b.align.getD c.align

/-- The hypothetical heights leave space in the column. -/
def growing (c : Column) (items : List FlowRun) : Bool :=
  total (items.map fun i => i.outer i.hypothetical) < c.innerHeight

/-- The space that the boxes leave, or less than nothing if they take up more than there is. -/
def free (c : Column) (items : List FlowRun) : Float32 :=
  c.innerHeight - total (items.map fun i => i.outer i.height)

/-- The passes for the boxes in the flow of a column, with the width of the line that they are in. -/
structure Follows (c : Column) (line : Float32) (items : List FlowRun) : Prop where
  /-- Base heights. -/
  base : ∀ i ∈ items, i.Based
  /-- Limits of the heights. -/
  limits : ∀ i ∈ items, i.Clamped
  /-- Sharing out the space that is left or missing. -/
  shared : SharedOut (c.growing items) (items.map (·.begun (c.growing items))) items
  /-- Widths of boxes that have one, within their limits; the others have one by their contents. -/
  natural : ∀ i ∈ items, ∀ width, i.box.width = some width →
    i.natural = greater (i.box.widthLimits.clamp width) 0
  /-- The line is as wide as the column inside its padding. -/
  definite : ∀ width, c.width = some width →
    line = greater (greater width c.padding.across - c.padding.across) 0
  /-- In a column without a width the widest box decides. -/
  widest : c.width = none →
    line = (items.map fun i => i.natural + i.box.margin.across).foldl greater 0
  /-- A box without a width is stretched to the line, within its limits. -/
  stretched : ∀ i ∈ items, c.alignOf i.box = .stretch → i.box.width = none →
    i.width = i.box.widthLimits.clamp (line - i.box.margin.across)
  /-- Any other box keeps its width. -/
  unstretched : ∀ i ∈ items, ¬(c.alignOf i.box = .stretch ∧ i.box.width = none) →
    i.width = i.natural
  /-- Space along the column. -/
  gap : ∀ k i, items[k]? = some i → i.gap = c.justify.gap (c.free items) items.length k
  /-- Space between the sides. -/
  shift : ∀ i ∈ items,
    i.shift = (c.alignOf i.box).shift (line - (i.width + i.box.margin.across))
  /-- The first box begins below the padding. -/
  first : ∀ i ∈ items.head?, i.edge = c.padding.top
  /-- Any other box begins where the one before it ends. -/
  next : items.IsChain fun i j => j.edge = i.bottom

/-- The frame of a box in the flow. -/
def flowFrame (c : Column) (i : FlowRun) : Box where
  x := c.padding.left + i.shift + i.box.margin.left
  y := i.edge + i.gap + i.box.margin.top
  w := greater i.width 0
  h := greater i.height 0

end Column

/-- A size out of the flow is the one of the box, or what is left between two distances. -/
def fixedSize? (extent : Float32) (size start finish : Option Float32) (before after : Float32) :
    Option Float32 :=
  match size, start, finish with
  | some size, _, _ => some (greater size 0)
  | none, some start, some finish => some (greater (extent - before - after - start - finish) 0)
  | none, _, _ => none

/-- A box out of the flow begins at its distance from the edge where the column begins, or else at
the one from the edge where it ends. -/
def fixedStart? (extent size : Float32) (start finish : Option Float32) (before after : Float32) :
    Option Float32 :=
  match start, finish with
  | some start, _ => some (start + before)
  | none, some finish => some (extent - size - finish - after)
  | none, none => none

/-- The pass for a box out of the flow of a column of some width and height. What the box does not
say is left open. -/
structure FixedBox.Fits (b : FixedBox) (width height : Float32) (f : Box) : Prop where
  w : ∀ w, fixedSize? width b.width b.left b.right b.margin.left b.margin.right = some w → f.w = w
  h : ∀ h, fixedSize? height b.height b.top b.bottom b.margin.top b.margin.bottom = some h → f.h = h
  x : ∀ x, fixedStart? width f.w b.left b.right b.margin.left b.margin.right = some x → f.x = x
  y : ∀ y, fixedStart? height f.h b.top b.bottom b.margin.top b.margin.bottom = some y → f.y = y

/-- Frames of the boxes in their order; no zero of a frame has a sign. -/
inductive Column.Places (c : Column) (line : Float32) :
    List ColumnBox → List FlowRun → List Box → Prop
  | nil : Places c line [] [] []
  | flow {boxes : List ColumnBox} {items : List FlowRun} {frames : List Box} {b : FlowBox}
    {i : FlowRun} : i.box = b → Places c line boxes items frames →
    Places c line (.flow b :: boxes) (i :: items) ((c.flowFrame i).unsignedZeros :: frames)
  | fixed {boxes : List ColumnBox} {items : List FlowRun} {frames : List Box} {b : FixedBox}
    {f : Box} : b.Fits (c.outerWidth line) c.outerHeight f → Places c line boxes items frames →
    Places c line (.fixed b :: boxes) items (f.unsignedZeros :: frames)

/-- Frames that the passes may give the boxes of a column. -/
def Column.LaidOut (c : Column) (frames : List Box) : Prop :=
  ∃ line items, c.Follows line items ∧ c.Places line c.boxes items frames

/-- A size is finite and not negative. -/
def IsSize (x : Float32) : Prop := Requirement.nonNegative.holds x = true

instance (x : Float32) : Decidable (IsSize x) :=
  inferInstanceAs (Decidable (Requirement.nonNegative.holds x = true))

/-- The limits of a size are sizes. -/
structure Limits.InRange (l : Limits) : Prop where
  least : ∀ x ∈ l.least, IsSize x
  greatest : ∀ x ∈ l.greatest, IsSize x

/-- The space on each side is finite. -/
def Insets.IsFinite (i : Insets) : Prop :=
  ∀ m ∈ [i.top, i.right, i.bottom, i.left], m.isFinite = true

/-- The measures of a box are in range; a box out of the flow may be wider than any number. -/
def ColumnBox.InRange : ColumnBox → Prop
  | .flow b => (∀ w ∈ b.width, IsSize w) ∧ (∀ h ∈ b.height, IsSize h) ∧ b.widthLimits.InRange ∧
      b.heightLimits.InRange ∧ b.margin.IsFinite ∧ (∀ h ∈ b.basis, IsSize h) ∧ IsSize b.grow ∧
      IsSize b.shrink
  | .fixed b => (∀ x ∈ [b.left, b.top, b.right, b.bottom].flatMap Option.toList,
      x.isFinite = true) ∧ (∀ w ∈ b.width, 0 ≤ w) ∧ (∀ h ∈ b.height, IsSize h) ∧ b.margin.IsFinite

/-- The measures of a column and of its boxes are in range. -/
structure Column.InRange (c : Column) : Prop where
  width : ∀ w ∈ c.width, IsSize w
  height : IsSize c.height
  padding : ∀ p ∈ [c.padding.top, c.padding.right, c.padding.bottom, c.padding.left], IsSize p
  boxes : ∀ b ∈ c.boxes, b.InRange

/-- An engine lays out a column by the passes, if the measures of the column are in range. -/
def LaysOutColumns (engine : Column → List Box) : Prop :=
  ∀ c : Column, c.InRange → c.LaidOut (engine c)

/-- A size is a finite number that is at least zero. -/
theorem isSize_iff {x : Float32} : IsSize x ↔ x.isFinite = true ∧ 0 ≤ x :=
  Requirement.holds_iff

theorem IsSize.zero_le {x : Float32} (h : IsSize x) : 0 ≤ x :=
  (isSize_iff.mp h).2

/-- Of two lengths the first one is the greater unless it is below the second. -/
theorem greater_eq_left {a b : Float32} (h : b ≤ a) : greater a b = a := by
  have hnumber : a.isNaN = false := isNaN_eq_false_of_le h
  unfold greater
  rw [hnumber, if_neg Bool.false_ne_true, if_neg (not_lt_of_le h), ite_self]

/-- A box whose height no pass can change: it has one, with no basis beside it, no limits and no
share. -/
structure FlowBox.Rigid (b : FlowBox) (size : Float32) : Prop where
  zero_le : 0 ≤ size
  height : b.height = some size
  basis : b.basis = none
  limits : b.heightLimits = {}
  grow : b.grow = 0
  shrink : b.shrink = 0

namespace FlowRun

variable {growing : Bool} {i j : FlowRun}

/-- The base height of a rigid box is its height. -/
theorem Based.base_eq (h : i.Based) {size : Float32} (hi : i.box.Rigid size) : i.base = size := by
  have hsize : i.box.basis.or i.box.height = some size := by
    rw [hi.basis, hi.height, Option.none_or]
  rw [h size hsize, greater_eq_left hi.zero_le]

/-- The contents of a rigid box do not make it higher than it is. -/
theorem Clamped.hypothetical_eq (h : i.Clamped) (hbase : i.Based) {size : Float32}
    (hi : i.box.Rigid size) : i.hypothetical = size := by
  have hnone : i.box.heightLimits.least = none := by rw [hi.limits]
  have hclamp : i.heightLimits.clamp i.base = greater i.base i.least := by
    unfold heightLimits
    rw [hi.limits]
    rfl
  rw [h.hypothetical, hclamp, hbase.base_eq hi,
    greater_eq_left ((h.contents hnone).2 size hi.height)]

/-- A box without a share is frozen before any space is shared out. -/
theorem frozen_begun {size : Float32} (hi : i.box.Rigid size) (growing : Bool) :
    (i.begun growing).frozen = true := by
  have hzero : ((0 : Float32) == 0) = true := by decide
  simp only [begun, hi.grow, hi.shrink, ite_self, hzero, Bool.true_or]

/-- No round changes a frozen box. -/
theorem Resized.eq_of_frozen {space shares : Float32} (h : Resized growing space shares i j)
    (hi : i.frozen = true) : j = i := by
  unfold Resized at h
  rwa [if_pos hi] at h

end FlowRun

/-- However many rounds there are, a box that is frozen stays as it is. -/
theorem SharedOut.forall₂_frozen {growing : Bool} {before after : List FlowRun}
    (h : SharedOut growing before after) :
    List.Forall₂ (fun i j : FlowRun => i.frozen = true → j = i) before after := by
  induction h with
  | done _ => exact List.forall₂_same.mpr fun _ _ _ => rfl
  | round space shares _ hround _ ih =>
    refine forall₂_through (fun i j k hij hjk hi => ?_) hround ih
    obtain rfl := hij.eq_of_frozen hi
    exact hjk hi

namespace Column.Follows

variable {c : Column} {line : Float32} {items : List FlowRun} (h : c.Follows line items)
  {i : FlowRun} (hi : i ∈ items)

include h hi

/-- A box that is frozen from the beginning has its hypothetical height at the end. -/
theorem height_eq_hypothetical (hfrozen : (i.begun (c.growing items)).frozen = true) :
    i.height = i.hypothetical := by
  have hitems := List.forall₂_same.mp (List.forall₂_map_left_iff.mp h.shared.forall₂_frozen)
  have hbegun : i = i.begun (c.growing items) := hitems i hi hfrozen
  rw [hbegun]
  rfl

/-- A rigid box keeps its height, whatever the other boxes of the column are. -/
theorem height_eq {size : Float32} (hrigid : i.box.Rigid size) : i.height = size := by
  rw [h.height_eq_hypothetical hi (FlowRun.frozen_begun hrigid _),
    (h.limits i hi).hypothetical_eq (h.base i hi) hrigid]

/-- Where all the space that is left lies below the last box, none lies above any. -/
theorem gap_eq_zero (hstart : c.justify = .start) : i.gap = 0 := by
  obtain ⟨k, hk⟩ := List.mem_iff_getElem?.mp hi
  rw [h.gap k i hk, hstart]
  rfl

/-- A box that is stretched is not moved. -/
theorem shift_eq_zero (hstretch : c.alignOf i.box = .stretch) : i.shift = 0 := by
  rw [h.shift i hi, hstretch]
  rfl

/-- A box without a width and without limits gets the width of the line. -/
theorem width_eq_line (hstretch : c.alignOf i.box = .stretch) (hnone : i.box.width = none)
    (hlimits : i.box.widthLimits = {}) : i.width = line - i.box.margin.across := by
  rw [h.stretched i hi hstretch hnone, hlimits]
  rfl

/-- A box with a width and without limits keeps it. -/
theorem width_eq {width : Float32} (hwidth : i.box.width = some width) (hsize : 0 ≤ width)
    (hlimits : i.box.widthLimits = {}) : i.width = width := by
  have hunstretched : ¬(c.alignOf i.box = .stretch ∧ i.box.width = none) := by
    rintro ⟨_, hnone⟩
    rw [hwidth] at hnone
    cases hnone
  rw [h.unstretched i hi hunstretched, h.natural i hi width hwidth, hlimits]
  exact greater_eq_left hsize

end Column.Follows

end Folio
