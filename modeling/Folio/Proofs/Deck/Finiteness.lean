import Folio.Proofs.Deck.Mirror
import Folio.Proofs.Number.Magnitude

/-!
# Finite positions

The measures of a grid and of a card are checked one by one, but positions are sums and products of
them, and these may leave the range of binary32 numbers. Measures that stay well below the end of
the range cannot do that, however many slots there are: a stack of slots stops growing before it
overflows, since what is added to it becomes less than half a step.
-/

namespace Folio

open Number

/-- Whether all four measures of a frame are of some kind. -/
def Box.All (P : Float32 → Prop) (b : Box) : Prop := P b.x ∧ P b.y ∧ P b.w ∧ P b.h

/-- What holds of all measures of a box may be weakened. -/
theorem Box.All.imp {P Q : Float32 → Prop} {b : Box} (h : b.All P) (hPQ : ∀ {x}, P x → Q x) :
    b.All Q :=
  ⟨hPQ h.1, hPQ h.2.1, hPQ h.2.2.1, hPQ h.2.2.2⟩

/-- The greater of two bounded lengths has their bound. -/
theorem atMost_greater {b : ℚ} {x y : Float32} (hx : AtMost b x) (hy : AtMost b y) :
    AtMost b (greater x y) := by
  unfold greater
  split
  · exact hy
  · split
    · exact hx
    · split
      · exact hy
      · exact hx

/-- Dropping the sign of a zero keeps a bound. -/
theorem atMost_unsignedZero {b : ℚ} {x : Float32} (hb : 0 ≤ b) (hx : AtMost b x) :
    AtMost b (unsignedZero x) := by
  unfold unsignedZero
  split
  · exact ⟨0, rfl, hb⟩
  · exact hx

section Slots

variable {v : Int} (hv : 0 ≤ v)

include hv

/-- What the side paddings leave of a card is at most four times as wide as the measures. -/
theorem Insets.atMost_innerWidth {padding : Insets} {cellWidth : Float32} (hmax : v + 2 ≤ 127)
    (hleft : AtMost (2 ^ v) padding.left) (hright : AtMost (2 ^ v) padding.right)
    (hcell : AtMost (2 ^ v) cellWidth) :
    AtMost (2 ^ (v + 2)) (padding.innerWidth cellWidth) := by
  have hsides : AtMost (2 ^ (v + 1)) (padding.left + padding.right) :=
    hleft.add hright (by omega) (by omega) (by omega)
  have hwidest : AtMost (2 ^ (v + 1)) (greater cellWidth (padding.left + padding.right)) :=
    atMost_greater (hcell.mono (two_zpow_le (by omega))) hsides
  exact atMost_greater (hwidest.sub hsides (by omega) (by omega) hmax) atMost_zero

/-- A stack that has not grown past a power of two does not grow past it by one more slot. -/
theorem Slot.all_stack (hmax : v + 25 ≤ 127) {left inner cellWidth offset : Float32}
    (hleft : AtMost (2 ^ v) left) (hinner : AtMost (2 ^ (v + 2)) inner)
    (hcell : AtMost (2 ^ v) cellWidth) (hoffset : AtMost (2 ^ (v + 25)) offset) {slots : List Slot}
    (hslots : ∀ s ∈ slots, ∀ m ∈ CardTemplate.slotMeasures s, AtMost (2 ^ v) m.2) :
    ∀ box ∈ stack left inner cellWidth offset slots, box.All (AtMost (2 ^ (v + 25))) := by
  have hraise {u : Int} {x : Float32} (hx : AtMost (2 ^ u) x) (hu : u ≤ v + 25) :
      AtMost (2 ^ (v + 25)) x := hx.mono (two_zpow_le hu)
  induction slots generalizing offset with
  | nil => exact fun _ hbox => absurd hbox List.not_mem_nil
  | cons s rest ih =>
    obtain ⟨hs, hrest⟩ := List.forall_mem_cons.mp hslots
    have hheight : AtMost (2 ^ v) s.height := hs (.height, s.height) List.mem_cons_self
    have hwidth {default : Float32} (hdefault : AtMost (2 ^ (v + 25)) default) :
        AtMost (2 ^ (v + 25)) (s.width.getD default) := by
      cases hw : s.width with
      | none => exact hdefault
      | some w =>
        exact hraise (hs (.width, w) (CardTemplate.mem_slotMeasures_iff.mpr hw)) (by omega)
    unfold stack
    cases hplacement : s.placement with
    | flow marginTop =>
      have hmargin : AtMost (2 ^ v) marginTop :=
        hs (.marginTop, marginTop)
          (CardTemplate.mem_slotMeasures_iff.mpr (measure?_marginTop_eq_some_iff.mpr hplacement))
      have hstep : AtMost (2 ^ (v + 1)) (marginTop + s.height) :=
        hmargin.add hheight (by omega) (by omega) (by omega)
      -- at the bound of the offset one slot is no more than half a step
      have hnext : AtMost (2 ^ (v + 25)) (offset + (marginTop + s.height)) :=
        hoffset.add hstep (by omega) (by omega) hmax
      refine List.forall_mem_cons.mpr ⟨⟨hraise hleft (by omega), ?_, ?_, ?_⟩, ih hnext hrest⟩
      · exact hoffset.add hmargin (by omega) (by omega) hmax
      · exact hwidth (hraise hinner (by omega))
      · exact hraise hheight (by omega)
    | absolute x y =>
      have hx : AtMost (2 ^ v) x := hs (.x, x)
        (CardTemplate.mem_slotMeasures_iff.mpr (measure?_x_eq_some_iff.mpr ⟨y, hplacement⟩))
      have hy : AtMost (2 ^ v) y := hs (.y, y)
        (CardTemplate.mem_slotMeasures_iff.mpr (measure?_y_eq_some_iff.mpr ⟨x, hplacement⟩))
      have hleftover : AtMost (2 ^ (v + 1)) (cellWidth - x) :=
        hcell.sub hx (by omega) (by omega) (by omega)
      refine List.forall_mem_cons.mpr
        ⟨⟨hraise hx (by omega), hraise hy (by omega), ?_, ?_⟩, ih hoffset hrest⟩
      · exact hwidth (atMost_greater (hraise hleftover (by omega)) atMost_zero)
      · exact hraise hheight (by omega)

end Slots

namespace CardTemplate

variable {v : Int}

/-- The frames of slots have no measure past the power of two that a stack does not grow past. -/
theorem all_frames (hv : 0 ≤ v) (hmax : v + 25 ≤ 127) {card : CardTemplate}
    {cellWidth : Float32} (hcell : AtMost (2 ^ v) cellWidth)
    (hcard : ∀ m ∈ card.measures, AtMost (2 ^ v) m.2) :
    ∀ box ∈ card.frames cellWidth, box.All (AtMost (2 ^ (v + 25))) := by
  have hleft : AtMost (2 ^ v) card.padding.left :=
    hcard (.paddingLeft, _) (mem_measures_iff.mpr rfl)
  have hright : AtMost (2 ^ v) card.padding.right :=
    hcard (.paddingRight, _) (mem_measures_iff.mpr rfl)
  have htop : AtMost (2 ^ v) card.padding.top :=
    hcard (.paddingTop, _) (mem_measures_iff.mpr rfl)
  have hinner := Insets.atMost_innerWidth hv (by omega) hleft hright hcell
  have hslots : ∀ s ∈ card.slots, ∀ m ∈ slotMeasures s, AtMost (2 ^ v) m.2 := by
    rintro s hs ⟨m, x⟩ hm
    obtain ⟨position, hposition⟩ := List.mem_iff_getElem?.mp hs
    refine hcard (.slot position m, x) (mem_measures_iff.mpr ?_)
    exact Option.bind_eq_some_iff.mpr ⟨s, hposition, mem_slotMeasures_iff.mp hm⟩
  have hoffset : AtMost (2 ^ (v + 25)) card.padding.top := htop.mono (two_zpow_le (by omega))
  intro box hbox
  obtain ⟨raw, hraw, rfl⟩ := List.mem_map.mp hbox
  obtain ⟨hx, hy, hw, hh⟩ :=
    Slot.all_stack hv hmax hleft hinner hcell hoffset hslots raw hraw
  have hpos : (0 : ℚ) ≤ 2 ^ (v + 25) := by positivity
  exact ⟨atMost_unsignedZero hpos hx, atMost_unsignedZero hpos hy, atMost_unsignedZero hpos hw,
    atMost_unsignedZero hpos hh⟩

end CardTemplate

/-- The corner of a cell lies within the product of the number of items with twice the measures. -/
theorem GridSpec.atMost_anchor {v : Int} {spec : GridSpec Float32} {i k : Nat} {x y : Float32}
    (hv : 0 ≤ v) (hmax : v + k + 2 ≤ 127) (hi : i ≤ 2 ^ k)
    (hspec : ∀ m ∈ spec.measures, AtMost (2 ^ v) m.2) (h : spec.anchor i = .ok (x, y)) :
    AtMost (2 ^ (v + k + 2)) x ∧ AtMost (2 ^ (v + k + 2)) y := by
  have hwidth : AtMost (2 ^ v) spec.cellWidth := hspec (.cellWidth, _) (mem_measures_iff.mpr rfl)
  have hheight : AtMost (2 ^ v) spec.cellHeight := hspec (.cellHeight, _) (mem_measures_iff.mpr rfl)
  have hcolGap : AtMost (2 ^ v) spec.colGap := hspec (.colGap, _) (mem_measures_iff.mpr rfl)
  have hrowGap : AtMost (2 ^ v) spec.rowGap := hspec (.rowGap, _) (mem_measures_iff.mpr rfl)
  have hx : AtMost (2 ^ v) spec.originX := hspec (.originX, _) (mem_measures_iff.mpr rfl)
  have hy : AtMost (2 ^ v) spec.originY := hspec (.originY, _) (mem_measures_iff.mpr rfl)
  have hline {origin cell gap : Float32} {count : Nat} (hcount : count ≤ i)
      (horigin : AtMost (2 ^ v) origin) (hcell : AtMost (2 ^ v) cell)
      (hgap : AtMost (2 ^ v) gap) :
      AtMost (2 ^ (v + k + 2)) (origin + Length.ofCount count * (cell + gap)) := by
    have hpitch : AtMost (2 ^ (v + 1)) (cell + gap) :=
      hcell.add hgap (by omega) (by omega) (by omega)
    have hcounted := atMost_ofCount (hcount.trans hi) (by omega)
    have hoffset : AtMost (2 ^ (v + k + 1)) (Length.ofCount count * (cell + gap)) :=
      hcounted.mul hpitch (by omega) (by omega) (by omega)
    exact horigin.add hoffset (by omega) (by omega) hmax
  obtain ⟨⟨col, row⟩, hcell, h⟩ := bind_eq_ok_iff.mp h
  unfold cell at hcell
  split at hcell
  · cases hcell
  · cases hcell
    cases h
    exact ⟨hline (Nat.mod_le i _) hx hwidth hcolGap, hline (Nat.div_le_self i _) hy hheight hrowGap⟩

/-- The frames of a card: that of its item, and those of its shapes. -/
def PlacedCard.frames (card : PlacedCard) : List Box :=
  card.item.frame :: card.shapes.map (·.frame)

/-- A position in a cell moved to the corner of the cell. -/
theorem Box.All.translate {u : Int} {b : Box} {x y : Float32} (hb : b.All (AtMost (2 ^ u)))
    (hx : AtMost (2 ^ u) x) (hy : AtMost (2 ^ u) y) (hu : 0 ≤ u) (hmax : u + 1 ≤ 127) :
    Box.All (AtMost (2 ^ (u + 1))) (b.translate x y) := by
  obtain ⟨hbx, hby, hw, hh⟩ := hb
  exact ⟨hbx.add hx (by omega) (by omega) hmax, hby.add hy (by omega) (by omega) hmax,
    hw.mono (two_zpow_le (by omega)), hh.mono (two_zpow_le (by omega))⟩

namespace GridGroup

variable {group : GridGroup}

/-- The frames of a card that shows an item of a group are bounded as the measures and the number
of items are. -/
theorem Shows.all_frames {v : Int} {k : Nat} {entry : GridItem × Nat} {card : PlacedCard}
    (hv : 0 ≤ v) (hk : 23 ≤ k) (hmax : v + k ≤ 124) (hentry : entry.2 ≤ 2 ^ k)
    (hspec : ∀ m ∈ group.spec.measures, AtMost (2 ^ v) m.2)
    (hcard : ∀ m ∈ group.card.measures, AtMost (2 ^ v) m.2)
    (h : group.Shows (group.card.frames group.spec.cellWidth) entry card) :
    ∀ box ∈ card.frames, box.All (AtMost (2 ^ (v + k + 3))) := by
  obtain ⟨x, y, behind, slots, hanchor, hitem, hshapes, hbehind, hslots, _⟩ := h
  obtain ⟨hx, hy⟩ := GridSpec.atMost_anchor hv (by omega) hentry hspec hanchor
  have hwidth : AtMost (2 ^ v) group.spec.cellWidth :=
    hspec (.cellWidth, _) (GridSpec.mem_measures_iff.mpr rfl)
  have hheight : AtMost (2 ^ v) group.spec.cellHeight :=
    hspec (.cellHeight, _) (GridSpec.mem_measures_iff.mpr rfl)
  have hcell : card.item.frame.All (AtMost (2 ^ (v + k + 3))) := by
    rw [hitem]
    exact ⟨hx.mono (two_zpow_le (by omega)), hy.mono (two_zpow_le (by omega)),
      hwidth.mono (two_zpow_le (by omega)), hheight.mono (two_zpow_le (by omega))⟩
  intro box hbox
  unfold PlacedCard.frames at hbox
  rw [hshapes, List.map_append, hbehind, hslots, List.mem_cons, List.mem_append] at hbox
  rcases hbox with rfl | hbox | hbox
  · exact hcell
  · split at hbox
    · rw [List.mem_singleton.mp hbox]
      exact hcell
    · exact absurd hbox List.not_mem_nil
  · obtain ⟨slot, hslot, rfl⟩ := List.mem_map.mp hbox
    have hinner := CardTemplate.all_frames hv (by omega) hwidth hcard slot hslot
    have hraised : slot.All (AtMost (2 ^ (v + k + 2))) :=
      hinner.imp fun h => h.mono (two_zpow_le (by omega))
    have hmoved := hraised.translate hx hy (by omega) (by omega)
    rwa [show v + k + 2 + 1 = v + k + 3 by omega] at hmoved

/-- All positions on the cards of a placed group are finite if the measures of the grid and of the
card are not too large for the number of items. -/
theorem finite_of_place {styling : Styling} {placed : PlacedGroup} {v : Int} {k : Nat}
    (hv : 0 ≤ v) (hk : 23 ≤ k) (hmax : v + k ≤ 124) (hitems : group.items.length ≤ 2 ^ k)
    (hspec : ∀ m ∈ group.spec.measures, AtMost (2 ^ v) m.2)
    (hcard : ∀ m ∈ group.card.measures, AtMost (2 ^ v) m.2)
    (h : group.place styling = .ok placed) :
    ∀ card ∈ placed.cards, ∀ box ∈ card.frames, box.All (·.isFinite = true) := by
  obtain ⟨⟨frames, hframes, hshows⟩, _⟩ := mirroredBy_of_place h
  obtain ⟨_, _, hframes⟩ := bind_eq_ok_iff.mp hframes
  cases hframes
  intro card hmem box hbox
  obtain ⟨entry, hentry, hshow⟩ := exists_mem_of_forall₂ hshows hmem
  have hlt : entry.2 < group.items.length := by
    simpa only [Nat.zero_add] using List.snd_lt_add_of_mem_zipIdx hentry
  have hbounded := hshow.all_frames hv hk hmax (by omega) hspec hcard box hbox
  exact hbounded.imp AtMost.isFinite

/-- Five cards in three columns, the slots of each with and without a place of its own. -/
def services : GridGroup :=
  let slots := [(Slot.label 0.3).flowing 0.1, (Slot.literal "more" 0.2).placed 0.5 0.25]
  { items := GridItem.ofLabels ["Ann", "Ben", "Cat", "Dan", "Eve"]
    spec := ⟨3, 2.4, 1, 1, 1.7, 0.4, 0.6⟩
    card := { padding := .uniform 0.125, slots } }

/-- The positions of the five cards are finite, as no measure is greater than four. -/
theorem finite_of_place_services :
    services.items.length ≤ 2 ^ 23 ∧
      (∀ m ∈ services.spec.measures, AtMost (2 ^ (2 : Int)) m.2) ∧
      (∀ m ∈ services.card.measures, AtMost (2 ^ (2 : Int)) m.2) ∧
      ∃ placed, services.place ⟨Stylesheet.plainTheme, Stylesheet.letter⟩ = .ok placed ∧
        ∀ card ∈ placed.cards, ∀ box ∈ card.frames, box.All (·.isFinite = true) := by
  have hitems : services.items.length ≤ 2 ^ 23 := by decide
  have hspec : ∀ m ∈ services.spec.measures, AtMost (2 ^ (2 : Int)) m.2 := by decide +kernel
  have hcard : ∀ m ∈ services.card.measures, AtMost (2 ^ (2 : Int)) m.2 := by decide +kernel
  obtain ⟨placed, hplaced⟩ :
      ∃ placed, services.place ⟨Stylesheet.plainTheme, Stylesheet.letter⟩ = .ok placed :=
    exists_eq_ok_of_isOk (by decide +kernel)
  exact ⟨hitems, hspec, hcard, placed, hplaced,
    finite_of_place (by decide) (by decide) (by decide) hitems hspec hcard hplaced⟩

/-- A grid of one column whose cell and gap together are wider than any number. -/
def overflowing : GridGroup :=
  { items := [{ index := 0, label := "Ann" }]
    spec := ⟨1, 3e38, 1, 1, 2, 3e38, 0⟩
    card := { shape := some .rectangle } }

/-- Checking each measure alone does not keep positions finite: even the card in the first column,
which no width moves, lies nowhere when a width overflows. -/
theorem not_forall_finite_of_place :
    ¬∀ (styling : Styling) (group : GridGroup) (placed : PlacedGroup),
      group.spec.validate = .ok () → group.card.validate = .ok () →
      group.place styling = .ok placed →
      ∀ card ∈ placed.cards, ∀ box ∈ card.frames, box.All (·.isFinite = true) := by
  intro hall
  obtain ⟨⟨⟩, hspec⟩ : ∃ u, overflowing.spec.validate = .ok u :=
    exists_eq_ok_of_isOk (by decide +kernel)
  obtain ⟨⟨⟩, hcard⟩ : ∃ u, overflowing.card.validate = .ok u :=
    exists_eq_ok_of_isOk (by decide +kernel)
  obtain ⟨placed, hplaced⟩ :
      ∃ placed, overflowing.place ⟨Stylesheet.plainTheme, Stylesheet.letter⟩ = .ok placed :=
    exists_eq_ok_of_isOk (by decide +kernel)
  obtain ⟨⟨frames, _, hshows⟩, _⟩ := mirroredBy_of_place hplaced
  have hfinite := hall _ _ _ hspec hcard hplaced
  have hcorner : (overflowing.spec.anchor 0).toOption.map (·.1.isFinite) = some false := by
    decide +kernel
  generalize placed.cards = cards at hshows hfinite
  cases hshows with
  | cons hshow _ =>
    obtain ⟨x, y, _, _, hanchor, hitem, _⟩ := hshow
    have hx := (hfinite _ List.mem_cons_self _ List.mem_cons_self).1
    rw [hitem] at hx
    rw [show overflowing.spec.anchor 0 = .ok (x, y) from hanchor] at hcorner
    exact absurd (Option.some.inj hcorner) (by simp [hx])

end GridGroup

end Folio
