import Folio.Proofs.Outcome
import Folio.Proofs.Style.Ascent
import Folio.Style.Styling

/-!
# Layers

A stack of layers declares what the first layer that declares it does, property by property. So the
properties in effect, which come out of layers that were stacked in several steps, are read off one
list of layers: local overrides, the chain of a style, what lies around, and the defaults.
-/

namespace Folio

namespace StyleProperties

@[simp] theorem stack_nil : stack [] = {} := rfl

@[simp] theorem stack_cons (p : StyleProperties) (layers : List StyleProperties) :
    stack (p :: layers) = p.above (stack layers) := rfl

theorem stack_singleton (p : StyleProperties) : stack [p] = p := by
  rw [stack_cons, stack_nil, above_empty]

/-- Stacking some layers above others stacks them all. -/
theorem stack_append (upper lower : List StyleProperties) :
    stack (upper ++ lower) = (stack upper).above (stack lower) := by
  induction upper with
  | nil => rw [List.nil_append, stack_nil, empty_above]
  | cons p upper ih => rw [List.cons_append, stack_cons, stack_cons, ih, above_assoc]

/-- What the first of some layers that declares a property declares. -/
def nearest {α : Type} (property : StyleProperties → Option α) (layers : List StyleProperties) :
    Option α :=
  layers.findSome? property

@[simp] theorem nearest_nil {α : Type} (property : StyleProperties → Option α) :
    nearest property [] = none := rfl

@[simp] theorem nearest_cons {α : Type} (property : StyleProperties → Option α)
    (p : StyleProperties) (layers : List StyleProperties) :
    nearest property (p :: layers) = (property p).or (nearest property layers) := by
  unfold nearest
  rw [List.findSome?_cons]
  cases property p <;> rfl

/-- A nearest value with a base value beside it is declared by a layer, or it is the base value and
no layer declares any. -/
theorem getD_nearest_eq {α : Type} {property : StyleProperties → Option α}
    {layers : List StyleProperties} {base a : α} (h : (nearest property layers).getD base = a) :
    (∃ p ∈ layers, property p = some a) ∨ base = a ∧ ∀ p ∈ layers, property p = none := by
  cases hn : nearest property layers with
  | none =>
    rw [hn] at h
    exact .inr ⟨h, List.findSome?_eq_none_iff.mp hn⟩
  | some b =>
    rw [hn] at h
    obtain ⟨p, hp, hb⟩ := List.exists_of_findSome?_eq_some hn
    exact .inl ⟨p, hp, hb.trans (congrArg some h)⟩

/-- A property that the upper of two layers decides where it declares it is decided in a stack by
the first layer that declares it. -/
theorem property_stack {α : Type} (property : StyleProperties → Option α)
    (hempty : property {} = none)
    (habove : ∀ p q : StyleProperties, property (p.above q) = (property p).or (property q))
    (layers : List StyleProperties) : property (stack layers) = nearest property layers := by
  induction layers with
  | nil => rw [stack_nil, nearest_nil, hempty]
  | cons p layers ih => rw [stack_cons, nearest_cons, habove, ih]

end StyleProperties

open StyleProperties

/-- In each property a style has what the first of some layers that declares it declares, with roles
looked up in a theme, and a base value where no layer declares it. -/
structure NearestWins (theme : Theme) (layers : List StyleProperties) (s : EffectiveStyle) :
    Prop where
  font : ((nearest (·.run.font) layers).getD (.role baseFontRole)).resolve theme = .ok s.run.font
  sizePt : s.run.sizePt = (nearest (·.run.sizePt) layers).getD 12
  bold : s.run.bold = (nearest (·.run.bold) layers).getD false
  italic : s.run.italic = (nearest (·.run.italic) layers).getD false
  underline : s.run.underline = (nearest (·.run.underline) layers).getD false
  color :
    ((nearest (·.run.color) layers).getD (.role baseColorRole)).resolve theme = .ok s.run.color
  alignment : s.paragraph.alignment = (nearest (·.paragraph.alignment) layers).getD .left
  spacingBeforePt :
    s.paragraph.spacingBeforePt = (nearest (·.paragraph.spacingBeforePt) layers).getD 0
  spacingAfterPt :
    s.paragraph.spacingAfterPt = (nearest (·.paragraph.spacingAfterPt) layers).getD 0
  outlineLevel : s.paragraph.outlineLevel = nearest (·.paragraph.outlineLevel) layers

/-- Layers determine the properties in effect. -/
theorem NearestWins.unique {theme : Theme} {layers : List StyleProperties} {s s' : EffectiveStyle}
    (h : NearestWins theme layers s) (h' : NearestWins theme layers s') : s = s' := by
  have hfont : s.run.font = s'.run.font := Except.ok.inj (h.font.symm.trans h'.font)
  have hcolor : s.run.color = s'.run.color := Except.ok.inj (h.color.symm.trans h'.color)
  obtain ⟨⟨_, _, _, _, _, _⟩, ⟨_, _, _, _⟩⟩ := s
  obtain ⟨⟨_, _, _, _, _, _⟩, ⟨_, _, _, _⟩⟩ := s'
  simp only [EffectiveStyle.mk.injEq, RunStyle.mk.injEq, ParagraphStyle.mk.injEq]
  exact ⟨⟨hfont, h.sizePt.trans h'.sizePt.symm, h.bold.trans h'.bold.symm,
      h.italic.trans h'.italic.symm, h.underline.trans h'.underline.symm, hcolor⟩,
    h.alignment.trans h'.alignment.symm, h.spacingBeforePt.trans h'.spacingBeforePt.symm,
    h.spacingAfterPt.trans h'.spacingAfterPt.symm, h.outlineLevel.trans h'.outlineLevel.symm⟩

/-- A style declares the stack of its chain. -/
theorem Stylesheet.declared_eq_ok_iff {sheet : Stylesheet} (h : Acyclic sheet.styles) {id : String}
    {p : StyleProperties} :
    sheet.declared id = .ok p ↔
      ∃ path, Ascends sheet.styles (some id) path none ∧ p = stack (path.map (·.properties)) := by
  unfold declared
  rw [bind_eq_ok_iff]
  constructor
  · rintro ⟨path, hpath, hp⟩
    cases hp
    exact ⟨path, (chain_eq_ok_iff h).mp hpath, rfl⟩
  · rintro ⟨path, hway, rfl⟩
    exact ⟨path, (chain_eq_ok_iff h).mpr hway, rfl⟩

namespace Styling

variable {styling : Styling} {layers around : List StyleProperties} {s : EffectiveStyle}

/-- The defaults are one more layer under the others. -/
theorem stack_above_defaults :
    (stack layers).above styling.sheet.defaults = stack (layers ++ [styling.sheet.defaults]) := by
  rw [stack_append, stack_singleton]

/-- The font of stacked layers above the defaults is the nearest one. -/
theorem font_stack_above_defaults :
    ((stack layers).above styling.sheet.defaults).run.font =
      nearest (·.run.font) (layers ++ [styling.sheet.defaults]) := by
  rw [stack_above_defaults]
  exact property_stack (·.run.font) rfl (fun _ _ => rfl) _

/-- The colour of stacked layers above the defaults is the nearest one. -/
theorem color_stack_above_defaults :
    ((stack layers).above styling.sheet.defaults).run.color =
      nearest (·.run.color) (layers ++ [styling.sheet.defaults]) := by
  rw [stack_above_defaults]
  exact property_stack (·.run.color) rfl (fun _ _ => rfl) _

/-- What stacked layers settle in has the nearest values, the defaults being the last layer. -/
theorem nearestWins_of_settle (h : styling.settle (stack layers) = .ok s) :
    NearestWins styling.theme (layers ++ [styling.sheet.defaults]) s := by
  unfold settle at h
  rw [stack_above_defaults] at h
  obtain ⟨font, hfont, h⟩ := bind_eq_ok_iff.mp h
  obtain ⟨color, hcolor, h⟩ := bind_eq_ok_iff.mp h
  cases h
  have hnearest {α : Type} (property : StyleProperties → Option α) (hempty : property {} = none)
      (habove : ∀ p q : StyleProperties, property (p.above q) = (property p).or (property q)) :
      property (stack (layers ++ [styling.sheet.defaults])) =
        nearest property (layers ++ [styling.sheet.defaults]) :=
    property_stack property hempty habove _
  exact {
    font := by rwa [← hnearest (·.run.font) rfl fun _ _ => rfl]
    sizePt := congrArg (·.getD 12) (hnearest (·.run.sizePt) rfl fun _ _ => rfl)
    bold := congrArg (·.getD false) (hnearest (·.run.bold) rfl fun _ _ => rfl)
    italic := congrArg (·.getD false) (hnearest (·.run.italic) rfl fun _ _ => rfl)
    underline := congrArg (·.getD false) (hnearest (·.run.underline) rfl fun _ _ => rfl)
    color := by rwa [← hnearest (·.run.color) rfl fun _ _ => rfl]
    alignment := congrArg (·.getD .left) (hnearest (·.paragraph.alignment) rfl fun _ _ => rfl)
    spacingBeforePt :=
      congrArg (·.getD 0) (hnearest (·.paragraph.spacingBeforePt) rfl fun _ _ => rfl)
    spacingAfterPt :=
      congrArg (·.getD 0) (hnearest (·.paragraph.spacingAfterPt) rfl fun _ _ => rfl)
    outlineLevel := hnearest (·.paragraph.outlineLevel) rfl fun _ _ => rfl }

/-- Layers for which the nearest font and the nearest colour can be looked up settle. -/
theorem exists_settle_eq_ok {face : String} {c : Color}
    (hfont : ((nearest (·.run.font) (layers ++ [styling.sheet.defaults])).getD
      (.role baseFontRole)).resolve styling.theme = .ok face)
    (hcolor : ((nearest (·.run.color) (layers ++ [styling.sheet.defaults])).getD
      (.role baseColorRole)).resolve styling.theme = .ok c) :
    ∃ s, styling.settle (stack layers) = .ok s := by
  rw [← font_stack_above_defaults] at hfont
  rw [← color_stack_above_defaults] at hcolor
  exact ⟨_, bind_eq_ok_iff.mpr ⟨face, hfont, bind_eq_ok_iff.mpr ⟨c, hcolor, rfl⟩⟩⟩

/-- Layers settle in a style exactly when it has the nearest values. -/
theorem settle_stack_eq_ok_iff :
    styling.settle (stack layers) = .ok s ↔
      NearestWins styling.theme (layers ++ [styling.sheet.defaults]) s := by
  constructor
  · exact nearestWins_of_settle
  · intro h
    obtain ⟨s', hs'⟩ := exists_settle_eq_ok h.font h.color
    rw [h.unique (nearestWins_of_settle hs'), hs']

variable {style : Option String} {overrides p : StyleProperties} {id : String}

/-- An element declares its overrides above the chain of its style. -/
theorem declared_eq_ok_iff (h : Acyclic styling.sheet.styles) :
    styling.declared style overrides = .ok p ↔
      ∃ path, Ascends styling.sheet.styles style path none ∧
        p = stack (overrides :: path.map (·.properties)) := by
  cases style with
  | none =>
    constructor
    · intro hp
      cases hp
      exact ⟨[], .here none, (stack_singleton overrides).symm⟩
    · rintro ⟨path, hway, rfl⟩
      obtain ⟨rfl, _⟩ := hway.of_topmost topmost_none
      exact congrArg Except.ok (stack_singleton overrides).symm
  | some id =>
    unfold declared
    rw [bind_eq_ok_iff]
    constructor
    · rintro ⟨q, hq, hp⟩
      cases hp
      obtain ⟨path, hway, rfl⟩ := (Stylesheet.declared_eq_ok_iff h).mp hq
      exact ⟨path, hway, rfl⟩
    · rintro ⟨path, hway, rfl⟩
      exact ⟨_, (Stylesheet.declared_eq_ok_iff h).mpr ⟨path, hway, rfl⟩, rfl⟩

/-- What is done with the declarations of an element is done with the stack of its chain. -/
theorem declared_bind_eq_ok_iff (h : Acyclic styling.sheet.styles) {β : Type}
    {f : StyleProperties → Except BuildError β} {b : β} :
    styling.declared style overrides >>= f = .ok b ↔
      ∃ path, Ascends styling.sheet.styles style path none ∧
        f (stack (overrides :: path.map (·.properties))) = .ok b := by
  rw [bind_eq_ok_iff]
  constructor
  · rintro ⟨p, hp, hb⟩
    obtain ⟨path, hway, rfl⟩ := (declared_eq_ok_iff h).mp hp
    exact ⟨path, hway, hb⟩
  · rintro ⟨path, hway, hb⟩
    exact ⟨_, (declared_eq_ok_iff h).mpr ⟨path, hway, rfl⟩, hb⟩

/-- Without overrides only the chain is declared. -/
theorem declared_empty_bind_eq_ok_iff (h : Acyclic styling.sheet.styles) {β : Type}
    {f : StyleProperties → Except BuildError β} {b : β} :
    styling.declared style {} >>= f = .ok b ↔
      ∃ path, Ascends styling.sheet.styles style path none ∧
        f (stack (path.map (·.properties))) = .ok b := by
  simp only [declared_bind_eq_ok_iff h, stack_cons, empty_above]

/-- A style resolves to the nearest values of its overrides, its chain and the defaults. -/
theorem resolve_eq_ok_iff (h : Acyclic styling.sheet.styles) :
    styling.resolve id overrides = .ok s ↔
      ∃ path, Ascends styling.sheet.styles (some id) path none ∧
        NearestWins styling.theme
          (overrides :: path.map (·.properties) ++ [styling.sheet.defaults]) s := by
  unfold resolve
  rw [declared_bind_eq_ok_iff h]
  simp only [settle_stack_eq_ok_iff]

/-- A run resolves to the nearest values of its overrides, the chain of its style, what lies around
it and the defaults. -/
theorem resolveRun_eq_ok_iff (h : Acyclic styling.sheet.styles) :
    styling.resolveRun (stack around) style overrides = .ok s ↔
      ∃ path, Ascends styling.sheet.styles style path none ∧
        NearestWins styling.theme
          (overrides :: path.map (·.properties) ++ around ++ [styling.sheet.defaults]) s := by
  unfold resolveRun
  rw [declared_bind_eq_ok_iff h]
  simp only [← stack_append, settle_stack_eq_ok_iff]

end Styling

end Folio
