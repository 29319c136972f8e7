import Folio.Proofs.Style.Layers

/-!
# Roles

Fonts and colours may be given by roles, which a theme binds or not. The nearest font and the nearest
colour of some layers are the only references that have to be looked up, so layers settle exactly
when the roles among these two are bound.
-/

namespace Folio

open StyleProperties

/-- A font role that is not in the theme is unknown, and nothing else goes wrong. -/
theorem Theme.font_eq_error_iff {theme : Theme} {role : String} {e : BuildError} :
    theme.font role = .error e ↔ theme.fonts.contains role = false ∧ e = .unknownRole role := by
  unfold Theme.font Dict.contains
  cases theme.fonts.get? role <;> simp [eq_comm]

/-- A colour role that is not in the theme is unknown, and nothing else goes wrong. -/
theorem Theme.color_eq_error_iff {theme : Theme} {role : String} {e : BuildError} :
    theme.color role = .error e ↔ theme.colors.contains role = false ∧ e = .unknownRole role := by
  unfold Theme.color Dict.contains
  cases theme.colors.get? role <;> simp [eq_comm]

/-- A font is unknown when it is a role that the theme does not bind. -/
theorem FontRef.resolve_eq_error_iff {theme : Theme} {ref : FontRef} {e : BuildError} :
    ref.resolve theme = .error e ↔
      ∃ role, ref = .role role ∧ theme.fonts.contains role = false ∧ e = .unknownRole role := by
  cases ref with
  | face name => simp [resolve]
  | role name => simp [resolve, Theme.font_eq_error_iff]

/-- A colour is unknown when it is a role that the theme does not bind. -/
theorem ColorRef.resolve_eq_error_iff {theme : Theme} {ref : ColorRef} {e : BuildError} :
    ref.resolve theme = .error e ↔
      ∃ role, ref = .role role ∧ theme.colors.contains role = false ∧ e = .unknownRole role := by
  cases ref with
  | literal c => simp [resolve]
  | role name => simp [resolve, Theme.color_eq_error_iff]

/-- The two kinds of roles. -/
inductive RoleKind where
  | font
  | color
  deriving DecidableEq

namespace RoleKind

variable {kind : RoleKind} {theme : Theme} {p : StyleProperties} {layers : List StyleProperties}
  {role : String}

/-- The role of the kind that is looked up where no layer declares anything else. -/
def base : RoleKind → String
  | font => baseFontRole
  | color => baseColorRole

/-- The theme binds a role of the kind. -/
def bound (theme : Theme) (role : String) : RoleKind → Bool
  | font => theme.fonts.contains role
  | color => theme.colors.contains role

/-- A layer declares its font or colour, whichever the kind is, by a role. -/
def Names (p : StyleProperties) (role : String) : RoleKind → Prop
  | font => p.run.font = some (.role role)
  | color => p.run.color = some (.role role)

/-- A layer declares no font or no colour, whichever the kind is. -/
def Silent (p : StyleProperties) : RoleKind → Prop
  | font => p.run.font = none
  | color => p.run.color = none

/-- The nearest font or colour of some layers is a role. -/
def Effective (layers : List StyleProperties) (role : String) : RoleKind → Prop
  | font => (nearest (·.run.font) layers).getD (.role baseFontRole) = .role role
  | color => (nearest (·.run.color) layers).getD (.role baseColorRole) = .role role

theorem not_names_empty : ¬kind.Names {} role := by
  cases kind <;> exact nofun

theorem silent_empty : kind.Silent {} := by
  cases kind <;> rfl

theorem effective_nil : kind.Effective [] kind.base := by
  cases kind <;> rfl

theorem effective_cons_of_names (h : kind.Names p role) : kind.Effective (p :: layers) role := by
  cases kind <;> simp_all [Names, Effective]

/-- A layer that says nothing of a role leaves it to the layers below. -/
theorem effective_cons_of_silent (h : kind.Silent p) :
    kind.Effective (p :: layers) role ↔ kind.Effective layers role := by
  cases kind <;> simp_all [Silent, Effective]

/-- An effective role is named by a layer, or it is the base role and all layers are silent. -/
theorem Effective.cases (h : kind.Effective layers role) :
    (∃ p ∈ layers, kind.Names p role) ∨ role = kind.base ∧ ∀ p ∈ layers, kind.Silent p := by
  cases kind with
  | font =>
    rcases getD_nearest_eq h with hp | ⟨hbase, hsilent⟩
    · exact .inl hp
    · cases hbase
      exact .inr ⟨rfl, hsilent⟩
  | color =>
    rcases getD_nearest_eq h with hp | ⟨hbase, hsilent⟩
    · exact .inl hp
    · cases hbase
      exact .inr ⟨rfl, hsilent⟩

end RoleKind

/-- Where a style has the nearest values, the effective roles are bound. -/
theorem NearestWins.bound {theme : Theme} {layers : List StyleProperties} {s : EffectiveStyle}
    (h : NearestWins theme layers s) {kind : RoleKind} {role : String}
    (hrole : kind.Effective layers role) : kind.bound theme role = true := by
  by_contra hmissing
  rw [Bool.not_eq_true] at hmissing
  cases kind with
  | font =>
    have hfont := h.font
    rw [FontRef.resolve_eq_error_iff.mpr ⟨role, hrole, hmissing, rfl⟩] at hfont
    cases hfont
  | color =>
    have hcolor := h.color
    rw [ColorRef.resolve_eq_error_iff.mpr ⟨role, hrole, hmissing, rfl⟩] at hcolor
    cases hcolor

namespace Styling

variable {styling : Styling} {layers : List StyleProperties}

/-- Layers that do not settle have an effective role that the theme does not bind. -/
theorem exists_of_settle_eq_error {e : BuildError} (h : styling.settle (stack layers) = .error e) :
    ∃ (kind : RoleKind) (role : String), e = .unknownRole role ∧
      kind.Effective (layers ++ [styling.sheet.defaults]) role ∧
      kind.bound styling.theme role = false := by
  unfold settle at h
  rcases bind_eq_error_iff.mp h with hfont | ⟨face, _, h⟩
  · rw [font_stack_above_defaults] at hfont
    obtain ⟨role, hrole, hmissing, rfl⟩ := FontRef.resolve_eq_error_iff.mp hfont
    exact ⟨.font, role, rfl, hrole, hmissing⟩
  · rcases bind_eq_error_iff.mp h with hcolor | ⟨c, _, h⟩
    · rw [color_stack_above_defaults] at hcolor
      obtain ⟨role, hrole, hmissing, rfl⟩ := ColorRef.resolve_eq_error_iff.mp hcolor
      exact ⟨.color, role, rfl, hrole, hmissing⟩
    · cases h

end Styling

end Folio
