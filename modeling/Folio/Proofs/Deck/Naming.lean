import Folio.Deck.Placement
import Folio.Proofs.Deck.Reading
import Folio.Theme.Preset

/-!
# Names on a card

A card refers to the values of its item by name: in a slot for a field, in braces in a template, and
for the role of its fill. Slots and templates read the same value under every name, and so does the
fill under every name but `label`: there slots and templates read the label of the item, while the
fill reads a further value of that name, which the item may have or lack.
-/

namespace Folio

namespace GridItem

/-- What a reference to a further value comes to. -/
def further (item : GridItem) (name : String) : Except BuildError String :=
  match item.get? name with
  | some value => .ok value
  | none => .error (.missingField item.index name)

/-- A value, or an error, is what slots show for a name, as a field and in braces in a template. No
brace closes inside the braces. -/
structure ShowsAs (item : GridItem) (name : String) (value : Except BuildError String) : Prop where
  field : ∀ s : Slot, s.content = .field name → s.textFor item = value.map some
  template : '\x7d' ∉ name.toList → item.interpolate ("\x7b" ++ name ++ "\x7d") = value

/-- A value, or an error, is what the fill of a card is looked up by for a name. -/
def FillsAs (item : GridItem) (name : String) (value : Except BuildError String) : Prop :=
  ∀ (styling : Styling) (card : CardTemplate), card.fillField = some name →
    card.resolveFill styling item = value >>= fun role => (styling.theme.color role).map some

variable {item : GridItem} {name : String}

/-- Any name but that of the label is looked up among the further values. -/
theorem lookup_of_ne_label (h : name ≠ "label") : item.lookup name = item.further name :=
  if_neg h

/-- A template that is one name in braces is filled with the value of the name. -/
theorem interpolate_braced (h : '\x7d' ∉ name.toList) :
    item.interpolate ("\x7b" ++ name ++ "\x7d") = item.lookup name := by
  have htext : ("\x7b" ++ name ++ "\x7d").toList = '\x7b' :: (name.toList ++ ['\x7d']) := by
    simp
  have hread : Template.read ('\x7b' :: (name.toList ++ ['\x7d'])) =
      ⟨[⟨[], name.toList⟩], [], []⟩ := by
    rw [Template.read_of_closing (Template.closing?_eq_some_iff.mpr ⟨rfl, h⟩), Template.read]
    rfl
  have hnames : (Template.read ('\x7b' :: (name.toList ++ ['\x7d']))).names = [name] := by
    rw [hread, Template.Reading.names, List.map_singleton, String.ofList_toList]
  unfold interpolate
  rw [htext]
  cases hvalue : item.value? name with
  | some value =>
    have hvalues : List.Forall₂ (fun name value => item.value? name = some value) [name] [value] :=
      .cons hvalue .nil
    rw [Template.fill_eq_ok (hnames ▸ hvalues), Template.lookup_of_value?_eq_some hvalue, hread]
    simp [Template.Reading.filled]
  | none =>
    have hfirst : (Template.read ('\x7b' :: (name.toList ++ ['\x7d']))).names =
        [] ++ name :: [] := hnames
    rw [Template.fill_eq_error hfirst (List.forall_mem_nil _) hvalue,
      Template.lookup_of_value?_eq_none hvalue]
    rfl

/-- Slots show what the name stands for. -/
theorem showsAs_lookup (item : GridItem) (name : String) :
    item.ShowsAs name (item.lookup name) where
  field := by
    intro s hs
    unfold Slot.textFor
    rw [hs]
    dsimp only
    cases item.lookup name <;> rfl
  template := interpolate_braced

/-- The fill is looked up by the further value of the name. -/
theorem fillsAs_further (item : GridItem) (name : String) :
    item.FillsAs name (item.further name) := by
  intro styling card hcard
  unfold CardTemplate.resolveFill further
  rw [hcard]
  dsimp only
  cases item.get? name with
  | some role =>
    change (styling.theme.color role >>= fun c => pure (some c)) =
      (styling.theme.color role).map some
    cases styling.theme.color role <;> rfl
  | none => rfl

/-- Whatever a name is, the fill of a card is looked up by the further value of that name, or is
missing with it. Slots show the same value, or lack the same field, unless the name is `label`: then
they show the label. -/
theorem names_agree_unless_label (item : GridItem) (name : String) :
    item.FillsAs name (item.further name) ∧
      (name ≠ "label" → item.ShowsAs name (item.further name)) ∧
      (name = "label" → item.ShowsAs name (.ok item.label)) := by
  refine ⟨item.fillsAs_further name, fun hname => ?_, fun hname => ?_⟩
  · rw [← lookup_of_ne_label hname]
    exact item.showsAs_lookup name
  · have hlabel : item.lookup name = .ok item.label := if_pos hname
    rw [← hlabel]
    exact item.showsAs_lookup name

/-- An item with a further value by the name of its label. -/
def shadowed : GridItem :=
  (GridItem.field { index := 2, label := "Ann" } "label" "ink").field "role" "muted"

/-- Slots show the label of an item where the fill takes the further value of that name, and the same
value under any other name. -/
theorem names_agree_unless_label_shadowed :
    "role" ≠ "label" ∧ shadowed.ShowsAs "role" (.ok "muted") ∧
      shadowed.FillsAs "role" (.ok "muted") ∧ shadowed.ShowsAs "label" (.ok "Ann") ∧
      shadowed.FillsAs "label" (.ok "ink") ∧
      shadowed.FillsAs "port" (.error (.missingField 2 "port")) := by
  have hrole : shadowed.further "role" = .ok "muted" := by decide +kernel
  have hlabel : shadowed.further "label" = .ok "ink" := by decide +kernel
  have hport : shadowed.further "port" = .error (.missingField 2 "port") := by decide +kernel
  have hne : "role" ≠ "label" := by decide
  obtain ⟨hfills, hshows, _⟩ := names_agree_unless_label shadowed "role"
  obtain ⟨hfillsLabel, _, hshowsLabel⟩ := names_agree_unless_label shadowed "label"
  obtain ⟨hfillsPort, _, _⟩ := names_agree_unless_label shadowed "port"
  exact ⟨hne, hrole ▸ hshows hne, hrole ▸ hfills, hshowsLabel rfl, hlabel ▸ hfillsLabel,
    hport ▸ hfillsPort⟩

/-- An item whose label is the name of a role. -/
def inked : GridItem := { index := 0, label := "ink" }

/-- Under the name `label` slots show the label of an item, but its fill is missing. -/
theorem not_forall_names_agree :
    ¬∀ (item : GridItem) (name : String), ∃ value,
      item.ShowsAs name value ∧ item.FillsAs name value := by
  intro h
  obtain ⟨value, hshows, hfills⟩ := h inked "label"
  have hlabel : inked.interpolate "\x7blabel\x7d" = .ok "ink" := by decide +kernel
  obtain rfl := hlabel.symm.trans (hshows.template (by decide))
  have hfill : Except.error (.missingField 0 "label") = (Theme.cloudscript.color "ink").map some :=
    hfills ⟨Theme.cloudscript, .empty⟩ { fillField := some "label" } rfl
  unfold Theme.color at hfill
  split at hfill <;> cases hfill

end GridItem

end Folio
