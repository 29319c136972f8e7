import Folio.Proofs.Style.Binding

/-!
# References

A document or a deck names styles by their ids, and fonts and colours by their roles. With a
stylesheet that fits its theme nothing else can be unknown: the layers of the stylesheet itself are
known, so declarations are looked up or refused for the references of the element alone.
-/

namespace Folio

open StyleProperties

/-- Something that an element names and that may be unknown. -/
inductive Reference where
  | style (id : String)
  | role (kind : RoleKind) (name : String)
  deriving DecidableEq

namespace Reference

/-- A style is known when it is registered, and a role when the theme binds it in its kind. -/
def known (styling : Styling) : Reference → Bool
  | style id => styling.sheet.contains id
  | role kind name => kind.bound styling.theme name

/-- What is reported for an unknown reference. -/
def error : Reference → BuildError
  | style id => .unknownStyle id
  | role _ name => .unknownRole name

end Reference

/-- The role that a font is given by. -/
def FontRef.references : FontRef → List Reference
  | .role name => [.role .font name]
  | .face _ => []

/-- The role that a colour is given by. -/
def ColorRef.references : ColorRef → List Reference
  | .role name => [.role .color name]
  | .literal _ => []

/-- The roles that a layer names, that of the font first. -/
def StyleProperties.references (p : StyleProperties) : List Reference :=
  p.run.font.toList.flatMap FontRef.references ++ p.run.color.toList.flatMap ColorRef.references

/-- The style that an element names. -/
def styleReferences (styleId : Option String) : List Reference := styleId.toList.map .style

theorem FontRef.mem_references_iff {f : FontRef} {ref : Reference} :
    ref ∈ f.references ↔ ∃ name, f = .role name ∧ ref = .role .font name := by
  cases f <;> simp [references]

theorem ColorRef.mem_references_iff {c : ColorRef} {ref : Reference} :
    ref ∈ c.references ↔ ∃ name, c = .role name ∧ ref = .role .color name := by
  cases c <;> simp [references]

theorem mem_styleReferences_iff {styleId : Option String} {ref : Reference} :
    ref ∈ styleReferences styleId ↔ ∃ id, styleId = some id ∧ ref = .style id := by
  cases styleId <;> simp [styleReferences]

/-- A layer refers to the roles that it names. -/
theorem StyleProperties.mem_references_iff {p : StyleProperties} {ref : Reference} :
    ref ∈ p.references ↔ ∃ kind role, RoleKind.Names p role kind ∧ ref = .role kind role := by
  simp only [references, List.mem_append, List.mem_flatMap, Option.mem_toList,
    FontRef.mem_references_iff, ColorRef.mem_references_iff]
  constructor
  · rintro (⟨f, hf, name, rfl, rfl⟩ | ⟨c, hc, name, rfl, rfl⟩)
    · exact ⟨.font, name, hf, rfl⟩
    · exact ⟨.color, name, hc, rfl⟩
  · rintro ⟨kind, role, hnames, rfl⟩
    cases kind with
    | font => exact .inl ⟨_, hnames, role, rfl, rfl⟩
    | color => exact .inr ⟨_, hnames, role, rfl, rfl⟩

/-- An error reports one of some references that is unknown. -/
def Reports (styling : Styling) (refs : List Reference) (e : BuildError) : Prop :=
  ∃ ref ∈ refs, ref.known styling = false ∧ e = ref.error

variable {styling : Styling} {refs refs' : List Reference} {e : BuildError}

/-- What is reported is among the references that are not known anyway. -/
theorem Reports.of_subset (h : Reports styling refs e)
    (hsub : ∀ ref ∈ refs, ref ∈ refs' ∨ ref.known styling = true) : Reports styling refs' e := by
  obtain ⟨ref, href, hunknown, he⟩ := h
  rcases hsub ref href with href' | hknown
  · exact ⟨ref, href', hunknown, he⟩
  · rw [hunknown] at hknown
    cases hknown

/-- Where everything is known there is nothing to report. -/
theorem not_reports_of_known (h : ∀ ref ∈ refs, ref.known styling = true) :
    ¬Reports styling refs e := by
  rintro ⟨ref, href, hunknown, _⟩
  rw [h ref href] at hunknown
  cases hunknown

/-- What an element declares has a chain only if the style that it names is registered. -/
theorem styleReferences_known {styleId : Option String} {path : List StyleDefinition}
    (h : Ascends styling.sheet.styles styleId path none) :
    ∀ ref ∈ styleReferences styleId, ref.known styling = true := by
  intro ref href
  obtain ⟨id, rfl, rfl⟩ := mem_styleReferences_iff.mp href
  cases h with
  | up hd _ => exact Stylesheet.contains_iff.mpr ⟨_, hd⟩

/-- In what settles, the topmost layer names known roles. -/
theorem NearestWins.references_known {p : StyleProperties} {layers : List StyleProperties}
    {s : EffectiveStyle} (h : NearestWins styling.theme (p :: layers) s) :
    ∀ ref ∈ p.references, ref.known styling = true := by
  intro ref href
  obtain ⟨kind, role, hnames, rfl⟩ := mem_references_iff.mp href
  exact h.bound (RoleKind.effective_cons_of_names hnames)

/-- The layers of a stylesheet that fits the theme name known roles. -/
theorem Stylesheet.HasLayer.references_known (hfits : styling.sheet.Fits styling.theme)
    {p : StyleProperties} (h : styling.sheet.HasLayer p) :
    ∀ ref ∈ p.references, ref.known styling = true := by
  intro ref href
  obtain ⟨kind, role, hnames, rfl⟩ := mem_references_iff.mp href
  exact hfits.bound kind role (.inl ⟨p, h, hnames⟩)

/-- An id that is looked up only if it is registered is known. -/
theorem registered?_references_known {id : String} :
    ∀ ref ∈ styleReferences (styling.sheet.registered? id), ref.known styling = true := by
  intro ref href
  obtain ⟨id', hid, rfl⟩ := mem_styleReferences_iff.mp href
  unfold Stylesheet.registered? at hid
  split at hid
  · rename_i hcontains
    cases hid
    exact hcontains
  · cases hid

/-- Layers of a stylesheet that fits its theme refer to nothing unknown. -/
theorem layers_references_known (hfits : styling.sheet.Fits styling.theme)
    {layers : List StyleProperties} (h : ∀ p ∈ layers, styling.sheet.HasLayer p) :
    ∀ ref ∈ layers.flatMap references, ref.known styling = true := by
  intro ref href
  obtain ⟨p, hp, href⟩ := List.mem_flatMap.mp href
  exact (h p hp).references_known hfits ref href

/-- A shading or another colour is unknown when it refers to an unknown role. -/
theorem ColorRef.reports_of_resolve_eq_error {c : ColorRef}
    (h : c.resolve styling.theme = .error e) : Reports styling c.references e := by
  obtain ⟨role, rfl, hmissing, rfl⟩ := resolve_eq_error_iff.mp h
  exact ⟨.role .color role, List.mem_singleton_self _, hmissing, rfl⟩

/-- A colour that could be resolved refers to nothing unknown. -/
theorem ColorRef.references_known_of_resolve_eq_ok {c : ColorRef} {color : Color}
    (h : c.resolve styling.theme = .ok color) :
    ∀ ref ∈ c.references, ref.known styling = true := by
  intro ref href
  obtain ⟨role, rfl, rfl⟩ := mem_references_iff.mp href
  by_contra hunknown
  rw [Bool.not_eq_true] at hunknown
  rw [resolve_eq_error_iff.mpr ⟨role, rfl, hunknown, rfl⟩] at h
  cases h

/-- Declarations are refused only for a style that is not registered. -/
theorem Styling.reports_of_declared_eq_error (h : Acyclic styling.sheet.styles)
    (hfits : styling.sheet.Fits styling.theme) {styleId : Option String}
    {overrides : StyleProperties} (he : styling.declared styleId overrides = .error e) :
    Reports styling (styleReferences styleId) e := by
  cases styleId with
  | none => cases he
  | some id =>
    have hchain : styling.sheet.chain id = .error e := by
      rcases bind_eq_error_iff.mp he with hdeclared | ⟨_, _, hpure⟩
      · exact Stylesheet.declared_eq_error_iff.mp hdeclared
      · cases hpure
    cases hid : styling.sheet.contains id with
    | true =>
      obtain ⟨path, hway⟩ := (Stylesheet.rooted_iff h).mp hfits.rooted id hid
      rw [(Stylesheet.chain_eq_ok_iff h).mpr hway] at hchain
      cases hchain
    | false =>
      obtain ⟨path, missing, hway, _, rfl⟩ := (Stylesheet.chain_eq_error_iff h).mp hchain
      -- the way from an id that is not registered ends where it begins
      have htop := topmost_some (Stylesheet.contains_eq_false_iff.mp hid)
      obtain ⟨_, hstop⟩ := hway.of_topmost htop
      cases hstop
      exact ⟨.style id, List.mem_singleton_self _, hid, rfl⟩

/-- Layers are refused only for an unknown role that one of them names. -/
theorem Styling.reports_of_settle_eq_error (hfits : styling.sheet.Fits styling.theme)
    {layers : List StyleProperties} (he : styling.settle (stack layers) = .error e) :
    Reports styling (layers.flatMap references) e := by
  obtain ⟨kind, role, rfl, hmissing, hrole⟩ := exists_unbound_of_settle_eq_error he
  rcases hrole with ⟨p, hp, hnames⟩ | hrequires
  · have href := mem_references_iff.mpr ⟨kind, role, hnames, rfl⟩
    exact ⟨.role kind role, List.mem_flatMap.mpr ⟨p, hp, href⟩, hmissing, rfl⟩
  · exact absurd hrequires (hfits.not_requires hmissing)

/-- Overrides above a chain are refused only for what they or the layers around them name. -/
theorem Styling.reports_of_settle_chain_eq_error (hfits : styling.sheet.Fits styling.theme)
    {styleId : Option String} {path : List StyleDefinition} {overrides : StyleProperties}
    {around : List StyleProperties} (hway : Ascends styling.sheet.styles styleId path none)
    (he : styling.settle (stack (overrides :: path.map (·.properties) ++ around)) = .error e) :
    Reports styling (overrides.references ++ around.flatMap references) e := by
  refine (reports_of_settle_eq_error hfits he).of_subset fun ref href => ?_
  rw [List.flatMap_append, List.flatMap_cons, List.append_assoc] at href
  rcases List.mem_append.mp href with href | href
  · exact .inl (List.mem_append_left _ href)
  · rcases List.mem_append.mp href with href | href
    · have hpath := layers_references_known hfits fun p => Stylesheet.hasLayer_of_ascends hway
      exact .inr (hpath ref href)
    · exact .inl (List.mem_append_right _ href)

end Folio
