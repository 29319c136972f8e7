import Folio.Proofs.Deck.Layout

/-!
# Edits of cards

What an edit of a card changes in the frames of its slots. The stack below which a slot lies is made
of the slots that flow before it and of the top padding alone, so slots out of the flow may come, go
and change without moving any other slot, and a slot that comes later moves none before it. A slot
out of the flow does not depend on any other, and no slot on the height of the cell.
-/

namespace Folio

/-- Whether a slot is in the flow. -/
def Slot.flows (s : Slot) : Bool :=
  match s.placement with
  | .flow _ => true
  | .absolute _ _ => false

/-- What becomes of one slot in an edit of a card. -/
inductive SlotEdit where
  | keep (s : Slot)
  | insert (s : Slot)
  | delete (s : Slot)
  | change (old new : Slot)

namespace SlotEdit

/-- The slot before the edit. -/
def old? : SlotEdit → Option Slot
  | .keep s | .delete s | .change s _ => some s
  | .insert _ => none

/-- The slot after the edit. -/
def new? : SlotEdit → Option Slot
  | .keep s | .insert s | .change _ s => some s
  | .delete _ => none

/-- The slots before an edit. -/
def before (edits : List SlotEdit) : List Slot := edits.filterMap old?

/-- The slots after an edit. -/
def after (edits : List SlotEdit) : List Slot := edits.filterMap new?

/-- Slots in the flow are kept. -/
def KeepsFlow : SlotEdit → Prop
  | .keep _ => True
  | .insert s | .delete s => s.flows = false
  | .change old new => old.flows = false ∧ new.flows = false

theorem before_cons (e : SlotEdit) (edits : List SlotEdit) :
    before (e :: edits) = e.old?.toList ++ before edits := by
  cases e <;> rfl

theorem after_cons (e : SlotEdit) (edits : List SlotEdit) :
    after (e :: edits) = e.new?.toList ++ after edits := by
  cases e <;> rfl

/-- A slot that is kept stands between the slots that were before and after it. -/
theorem before_keep (earlier : List SlotEdit) (s : Slot) (later : List SlotEdit) :
    before (earlier ++ .keep s :: later) = before earlier ++ s :: before later := by
  unfold before
  rw [List.filterMap_append]
  rfl

/-- A slot that is kept stands between the slots that are then before and after it. -/
theorem after_keep (earlier : List SlotEdit) (s : Slot) (later : List SlotEdit) :
    after (earlier ++ .keep s :: later) = after earlier ++ s :: after later := by
  unfold after
  rw [List.filterMap_append]
  rfl

/-- An edit of a slot out of the flow changes nothing in the flow. -/
theorem KeepsFlow.filter_new? {e : SlotEdit} (h : e.KeepsFlow) :
    e.new?.toList.filter Slot.flows = e.old?.toList.filter Slot.flows := by
  have hfilter {s : Slot} (hs : s.flows = false) : [s].filter Slot.flows = [] :=
    List.filter_cons_of_neg (Bool.eq_false_iff.mp hs)
  cases e with
  | keep s => rfl
  | insert s => exact hfilter h
  | delete s => exact (hfilter h).symm
  | change old new => exact (hfilter h.2).trans (hfilter h.1).symm

/-- Edits of slots out of the flow leave the same slots in the flow. -/
theorem filter_after {edits : List SlotEdit} (h : ∀ e ∈ edits, e.KeepsFlow) :
    (after edits).filter Slot.flows = (before edits).filter Slot.flows := by
  induction edits with
  | nil => rfl
  | cons e edits ih =>
    obtain ⟨he, hedits⟩ := List.forall_mem_cons.mp h
    rw [after_cons, before_cons, List.filter_append, List.filter_append, he.filter_new?,
      ih hedits]

end SlotEdit

namespace Slot

variable {left inner cellWidth : Float32}

/-- A slot that is not in the flow has an offset. -/
theorem placement_of_not_flows {s : Slot} (h : s.flows = false) :
    ∃ x y, s.placement = .absolute x y := by
  unfold flows at h
  cases hplacement : s.placement with
  | flow marginTop =>
    rw [hplacement] at h
    cases h
  | absolute x y => exact ⟨x, y, rfl⟩

/-- A slot out of the flow does not move the end of the stack. -/
theorem advance_of_not_flows {s : Slot} (h : s.flows = false) (offset : Float32) :
    s.advance offset = offset := by
  obtain ⟨x, y, hplacement⟩ := placement_of_not_flows h
  exact advance_absolute hplacement offset

/-- A stack is made of the slots in the flow. -/
theorem foldl_advance_filter (slots : List Slot) (offset : Float32) :
    (slots.filter flows).foldl advance offset = slots.foldl advance offset := by
  induction slots generalizing offset with
  | nil => rfl
  | cons s rest ih =>
    cases hs : s.flows with
    | true => rw [List.filter_cons_of_pos hs, List.foldl_cons, List.foldl_cons, ih]
    | false =>
      rw [List.filter_cons_of_neg (Bool.eq_false_iff.mp hs), List.foldl_cons,
        advance_of_not_flows hs, ih]

/-- An edit that keeps the slots in the flow keeps the stack. -/
theorem foldl_advance_after {edits : List SlotEdit} (h : ∀ e ∈ edits, e.KeepsFlow)
    (offset : Float32) :
    (SlotEdit.after edits).foldl advance offset = (SlotEdit.before edits).foldl advance offset := by
  rw [← foldl_advance_filter, SlotEdit.filter_after h, foldl_advance_filter]

/-- A slot out of the flow depends on no stack and on no padding. -/
theorem frameAt_of_not_flows {s : Slot} (h : s.flows = false) {left' inner' : Float32}
    (offset offset' : Float32) :
    s.frameAt left inner cellWidth offset = s.frameAt left' inner' cellWidth offset' := by
  obtain ⟨x, y, hplacement⟩ := placement_of_not_flows h
  rw [frameAt_absolute hplacement, frameAt_absolute hplacement]

/-- Later slots are put below a stack that is already there. -/
theorem stack_append (offset : Float32) (xs ys : List Slot) :
    stack left inner cellWidth offset (xs ++ ys) =
      stack left inner cellWidth offset xs ++
        stack left inner cellWidth (xs.foldl advance offset) ys := by
  induction xs generalizing offset with
  | nil => rfl
  | cons s rest ih =>
    rw [List.cons_append, stack_cons, stack_cons, ih]
    rfl

end Slot

namespace CardTemplate

variable {card card' : CardTemplate} {w : Float32}

/-- The frame of a slot after others. -/
theorem getElem?_frames_of_append {xs ys : List Slot} {s : Slot}
    (hslots : card.slots = xs ++ s :: ys) :
    (card.frames w)[xs.length]? = some
      (s.frameAt card.padding.left (card.padding.innerWidth w) w
        (xs.foldl Slot.advance card.padding.top)).unsignedZeros := by
  rw [getElem?_frames, offsetBefore, hslots, List.take_left, List.getElem?_append_right le_rfl,
    Nat.sub_self]
  rfl

/-- A later slot moves none before it. -/
theorem frames_isPrefix (hpadding : card'.padding = card.padding)
    (hslots : card.slots <+: card'.slots) : card.frames w <+: card'.frames w := by
  obtain ⟨later, hlater⟩ := hslots
  unfold frames
  rw [← hlater, Slot.stack_append, List.map_append, hpadding]
  exact List.prefix_append _ _

/-- A slot that is kept keeps its frame if it lies at the same place below the stacks of both
versions. -/
theorem frame_of_keep {earlier later : List SlotEdit} {s : Slot}
    (hbefore : card.slots = SlotEdit.before (earlier ++ .keep s :: later))
    (hafter : card'.slots = SlotEdit.after (earlier ++ .keep s :: later))
    (hframe : s.frameAt card'.padding.left (card'.padding.innerWidth w) w
        ((SlotEdit.after earlier).foldl Slot.advance card'.padding.top) =
      s.frameAt card.padding.left (card.padding.innerWidth w) w
        ((SlotEdit.before earlier).foldl Slot.advance card.padding.top)) :
    ∃ frame, (card.frames w)[(SlotEdit.before earlier).length]? = some frame ∧
      (card'.frames w)[(SlotEdit.after earlier).length]? = some frame := by
  rw [SlotEdit.before_keep] at hbefore
  rw [SlotEdit.after_keep] at hafter
  refine ⟨_, getElem?_frames_of_append hbefore, ?_⟩
  rw [getElem?_frames_of_append hafter, hframe]

/-- With any engine that follows the rules, two versions of a card in cells of one width give the
same frame to a slot of both, if only slots out of the flow came, went or changed, or if it is out
of the flow itself; slots at the end take nothing from the others, and neither does the height of
the cell. -/
theorem framesBy_edited {engine : Column → List Box} (hengine : LaysOutColumns engine)
    {card card' : CardTemplate} {w h h' : Float32} (hvalid : card.validate = .ok ())
    (hvalid' : card'.validate = .ok ()) (hw : IsSize w) (hh : IsSize h) (hh' : IsSize h') :
    ∃ frames frames', card.framesBy engine w h = .ok frames ∧
      card'.framesBy engine w h' = .ok frames' ∧ card.framesBy engine w h' = .ok frames ∧
      (∀ (earlier : List SlotEdit) (s : Slot) (later : List SlotEdit),
        card.slots = SlotEdit.before (earlier ++ .keep s :: later) →
        card'.slots = SlotEdit.after (earlier ++ .keep s :: later) →
        (card'.padding = card.padding ∧ ∀ e ∈ earlier ++ .keep s :: later, e.KeepsFlow) ∨
          s.flows = false →
        ∃ frame, frames[(SlotEdit.before earlier).length]? = some frame ∧
          frames'[(SlotEdit.after earlier).length]? = some frame) ∧
      (card'.padding = card.padding → card.slots <+: card'.slots → frames <+: frames') := by
  refine ⟨card.frames w, card'.frames w, framesBy_eq hengine hvalid hw hh,
    framesBy_eq hengine hvalid' hw hh', framesBy_eq hengine hvalid hw hh', ?_, frames_isPrefix⟩
  intro earlier s later hbefore hafter hkept
  rcases hkept with ⟨hpadding, hflow⟩ | hs
  · refine frame_of_keep hbefore hafter ?_
    -- the stack above the slot is made of what comes before it
    rw [hpadding, Slot.foldl_advance_after fun e he => hflow e (List.mem_append_left _ he)]
  · exact frame_of_keep hbefore hafter (Slot.frameAt_of_not_flows hs _ _)

/-- A label, a badge in the corner and a text that overlaps the label. -/
def badged : CardTemplate :=
  { padding := .uniform 0.25
    slots := [Slot.label 0.5, (Slot.field "status" 0.25).placed 1.5 0.125,
      (Slot.field "text" 1).flowing (-0.125)] }

/-- The same card with pins in place of the badge. -/
def pinned : CardTemplate :=
  { badged with
    slots := [(Slot.literal "pin" 0.25).placed 0 0, Slot.label 0.5,
      (Slot.literal "pin" 0.25).placed 1 3, (Slot.field "text" 1).flowing (-0.125)] }

/-- The card without padding and label, with a taller text and a line below it. -/
def condensed : CardTemplate :=
  { badged with
    padding := .zero
    slots := [(Slot.field "status" 0.25).placed 1.5 0.125, Slot.field "text" 2,
      Slot.literal "more" 0.5] }

/-- The text stays where it is when pins come and the badge goes, and the badge when the label goes
and the text grows; a line below the text would leave all three alone. -/
theorem framesBy_edited_badged :
    LaysOutColumns Column.flexFrames ∧ badged.validate = .ok () ∧ pinned.validate = .ok () ∧
      condensed.validate = .ok () ∧ (badged.slot (Slot.literal "more" 0.5)).validate = .ok () ∧
      IsSize 2 ∧ IsSize 1 ∧ IsSize 3 ∧
      (∃ frames frames' frame, badged.framesBy Column.flexFrames 2 1 = .ok frames ∧
        pinned.framesBy Column.flexFrames 2 3 = .ok frames' ∧
        frames[2]? = some frame ∧ frames'[3]? = some frame) ∧
      (∃ frames frames' frame, badged.framesBy Column.flexFrames 2 1 = .ok frames ∧
        condensed.framesBy Column.flexFrames 2 3 = .ok frames' ∧
        frames[1]? = some frame ∧ frames'[0]? = some frame) ∧
      ∃ frames frames', badged.framesBy Column.flexFrames 2 1 = .ok frames ∧
        (badged.slot (Slot.literal "more" 0.5)).framesBy Column.flexFrames 2 3 = .ok frames' ∧
        badged.framesBy Column.flexFrames 2 3 = .ok frames ∧ frames <+: frames' := by
  have hengine := laysOutColumns_flexFrames
  have hbadged : badged.validate = .ok () := by decide +kernel
  have hpinned : pinned.validate = .ok () := by decide +kernel
  have hcondensed : condensed.validate = .ok () := by decide +kernel
  have hlonger : (badged.slot (Slot.literal "more" 0.5)).validate = .ok () := by decide +kernel
  have hw : IsSize 2 := by decide
  have hh : IsSize 1 := by decide
  have hh' : IsSize 3 := by decide
  refine ⟨hengine, hbadged, hpinned, hcondensed, hlonger, hw, hh, hh', ?_, ?_, ?_⟩
  · obtain ⟨frames, frames', hframes, hframes', _, hkept, _⟩ :=
      framesBy_edited hengine hbadged hpinned hw hh hh'
    obtain ⟨frame, hframe⟩ := hkept
      [.insert ((Slot.literal "pin" 0.25).placed 0 0), .keep (Slot.label 0.5),
        .change ((Slot.field "status" 0.25).placed 1.5 0.125)
          ((Slot.literal "pin" 0.25).placed 1 3)]
      ((Slot.field "text" 1).flowing (-0.125)) [] rfl rfl
      (.inl ⟨rfl, by simp [SlotEdit.KeepsFlow, Slot.flows, Slot.placed]⟩)
    exact ⟨frames, frames', frame, hframes, hframes', hframe⟩
  · obtain ⟨frames, frames', hframes, hframes', _, hkept, _⟩ :=
      framesBy_edited hengine hbadged hcondensed hw hh hh'
    obtain ⟨frame, hframe⟩ := hkept [.delete (Slot.label 0.5)]
      ((Slot.field "status" 0.25).placed 1.5 0.125)
      [.change ((Slot.field "text" 1).flowing (-0.125)) (Slot.field "text" 2),
        .insert (Slot.literal "more" 0.5)] rfl rfl (.inr rfl)
    exact ⟨frames, frames', frame, hframes, hframes', hframe⟩
  · obtain ⟨frames, frames', hframes, hframes', hheight, _, hlater⟩ :=
      framesBy_edited hengine hbadged hlonger hw hh hh'
    exact ⟨frames, frames', hframes, hframes', hheight,
      hlater rfl (List.prefix_append _ _)⟩

end CardTemplate

end Folio
