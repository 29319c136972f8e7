import Folio.Proofs.Style.Roles
import Folio.Theme.Json
import Mathlib.Data.List.Induction

/-!
# Themes from drafts

A draft is written by calls that bind roles, or read from a text. It becomes a theme exactly when
every role has a visible name, no role is bound to a colour and to a face, and every face has a
visible name; a face that has been replaced does not count. The theme gives each role what was
bound to it last, by whichever look-up, and lists every role once.
-/

namespace Folio

open Json

/-- A character of the text is not white space. -/
def Text.Visible (text : String) : Prop := ∃ c ∈ text.toList, isBlankChar c = false

theorem Text.isBlank_eq_false_iff {text : String} : isBlank text = false ↔ Visible text := by
  unfold isBlank Visible
  rw [List.all_eq_false]
  simp only [Bool.not_eq_true]

/-- A call that binds a role. -/
inductive ThemeStep where
  /-- Binds a role to a colour. -/
  | color (role : String) (c : Color)
  /-- Binds a role to a font face. -/
  | font (role face : String)

namespace ThemeStep

/-- The colour that a call binds a role to. -/
def color? (role : String) : ThemeStep → Option Color
  | .color r c => if r = role then some c else none
  | .font _ _ => none

/-- The face that a call binds a role to. -/
def face? (role : String) : ThemeStep → Option String
  | .color _ _ => none
  | .font r face => if r = role then some face else none

end ThemeStep

/-- Colours and faces by role, with no regard to whether they may make up a theme. -/
structure Bindings where
  /-- The colour that a role is bound to. -/
  color : String → Option Color
  /-- The face that a role is bound to. -/
  face : String → Option String

namespace Bindings

/-- What some calls bind: of several colours or several faces for a role the last. -/
def ofSteps (steps : List ThemeStep) : Bindings where
  color role := (steps.filterMap (·.color? role)).getLast?
  face role := (steps.filterMap (·.face? role)).getLast?

/-- What a draft binds. -/
def ofDraft (draft : ThemeDraft) : Bindings := ⟨draft.colors.get?, draft.fonts.get?⟩

/-- A role is bound to a colour or to a face. -/
def Binds (b : Bindings) (role : String) : Prop := (b.color role).isSome ∨ (b.face role).isSome

/-- Bindings that make up a theme. -/
structure Sound (b : Bindings) : Prop where
  role : ∀ role, b.Binds role → Text.Visible role
  kind : ∀ role, ¬((b.color role).isSome ∧ (b.face role).isSome)
  face : ∀ role face, b.face role = some face → Text.Visible face

/-- A fault is one that the bindings have. -/
def Has (b : Bindings) : ThemeFault → Prop
  | .blankRole => ∃ role, b.Binds role ∧ ¬Text.Visible role
  | .ambiguousRole role => (b.color role).isSome ∧ (b.face role).isSome
  | .blankFace role => ∃ face, b.face role = some face ∧ ¬Text.Visible face

theorem Sound.not_has {b : Bindings} (h : b.Sound) (fault : ThemeFault) : ¬b.Has fault := by
  cases fault with
  | blankRole =>
    rintro ⟨role, hbound, hblank⟩
    exact hblank (h.role role hbound)
  | ambiguousRole role => exact h.kind role
  | blankFace role =>
    rintro ⟨face, hface, hblank⟩
    exact hblank (h.face role face hface)

end Bindings

namespace ThemeDraft

/-- Does one call. -/
def apply (draft : ThemeDraft) : ThemeStep → ThemeDraft
  | .color role c => draft.color role c
  | .font role face => draft.font role face

/-- The draft that some calls give. -/
def ofSteps (name : String) (steps : List ThemeStep) : ThemeDraft := steps.foldl apply (new name)

/-- What a step binds hides what was bound before it. -/
theorem colors_apply (draft : ThemeDraft) (step : ThemeStep) (role : String) :
    (draft.apply step).colors.get? role = (step.color? role).or (draft.colors.get? role) := by
  cases step with
  | color r c =>
    change (draft.colors.insert r c).get? role = _
    rw [Dict.get?_insert, ThemeStep.color?]
    by_cases hrole : r = role
    · rw [if_pos hrole, if_pos hrole.symm, Option.some_or]
    · rw [if_neg hrole, if_neg (Ne.symm hrole), Option.none_or]
  | font r face => rfl

theorem fonts_apply (draft : ThemeDraft) (step : ThemeStep) (role : String) :
    (draft.apply step).fonts.get? role = (step.face? role).or (draft.fonts.get? role) := by
  cases step with
  | color r c => rfl
  | font r face =>
    change (draft.fonts.insert r face).get? role = _
    rw [Dict.get?_insert, ThemeStep.face?]
    by_cases hrole : r = role
    · rw [if_pos hrole, if_pos hrole.symm, Option.some_or]
    · rw [if_neg hrole, if_neg (Ne.symm hrole), Option.none_or]

/-- Whatever a call may have done to a role, the last call that did it counts. -/
theorem getLast?_filterMap_append {α : Type} (f : ThemeStep → Option α) (steps : List ThemeStep)
    (step : ThemeStep) : ((steps ++ [step]).filterMap f).getLast? =
      (f step).or (steps.filterMap f).getLast? := by
  rw [List.filterMap_append, List.getLast?_append]
  cases hstep : f step with
  | none => simp [hstep]
  | some a => simp [hstep]

/-- The draft that some calls give binds what they bind last. -/
theorem ofDraft_ofSteps (name : String) (steps : List ThemeStep) :
    Bindings.ofDraft (ofSteps name steps) = Bindings.ofSteps steps := by
  induction steps using List.reverseRecOn with
  | nil => rfl
  | append_singleton steps step ih =>
    have hstep : ofSteps name (steps ++ [step]) = (ofSteps name steps).apply step :=
      List.foldl_concat ..
    have hcolor := congrArg Bindings.color ih
    have hface := congrArg Bindings.face ih
    unfold Bindings.ofDraft Bindings.ofSteps at hcolor hface ⊢
    rw [Bindings.mk.injEq, hstep]
    constructor
    · funext role
      rw [colors_apply, getLast?_filterMap_append]
      exact congrArg _ (congrFun hcolor role)
    · funext role
      rw [fonts_apply, getLast?_filterMap_append]
      exact congrArg _ (congrFun hface role)

variable {draft : ThemeDraft}

/-- The names of a draft are those of the roles that it binds. -/
theorem mem_names_append_iff {role : String} :
    role ∈ draft.colors.names ++ draft.fonts.names ↔ (Bindings.ofDraft draft).Binds role := by
  rw [List.mem_append, Dict.mem_names_iff, Dict.mem_names_iff, Bindings.Binds,
    Option.isSome_iff_exists, Option.isSome_iff_exists]
  rfl

/-- The fault of a draft is one that its bindings have. -/
theorem has_of_fault? {fault : ThemeFault} (h : draft.fault? = some fault) :
    (Bindings.ofDraft draft).Has fault := by
  unfold fault? at h
  split at h
  · rename_i hblank
    cases h
    obtain ⟨role, hrole, hblank⟩ := List.any_eq_true.mp hblank
    refine ⟨role, mem_names_append_iff.mp hrole, fun hvisible => ?_⟩
    rw [Text.isBlank_eq_false_iff.mpr hvisible] at hblank
    cases hblank
  · split at h
    · rename_i role hfind
      cases h
      obtain ⟨c, hcolor⟩ := Dict.mem_names_iff.mp (List.mem_of_find?_eq_some hfind)
      have hface : draft.fonts.contains role = true := List.find?_some hfind
      exact ⟨Option.isSome_iff_exists.mpr ⟨c, hcolor⟩, hface⟩
    · obtain ⟨⟨role, face⟩, hfind, heq⟩ := Option.map_eq_some_iff.mp h
      cases heq
      refine ⟨face, Dict.get?_eq_some_iff.mpr (List.mem_of_find?_eq_some hfind), fun hvisible => ?_⟩
      have hblank := List.find?_some hfind
      rw [Text.isBlank_eq_false_iff.mpr hvisible] at hblank
      cases hblank

/-- A draft without a fault has sound bindings. -/
theorem sound_of_fault? (h : draft.fault? = none) : (Bindings.ofDraft draft).Sound := by
  unfold fault? at h
  split at h
  · cases h
  · rename_i hroles
    split at h
    · cases h
    · rename_i hkinds
      rw [Bool.not_eq_true, List.any_eq_false] at hroles
      rw [List.find?_eq_none] at hkinds
      rw [Option.map_eq_none_iff, List.find?_eq_none] at h
      exact {
        role := fun role hbound => Text.isBlank_eq_false_iff.mp
          (Bool.not_eq_true _ ▸ hroles role (mem_names_append_iff.mpr hbound))
        kind := fun role ⟨hcolor, hface⟩ =>
          hkinds role (Dict.mem_names_iff.mpr (Option.isSome_iff_exists.mp hcolor)) hface
        face := fun role face hface => Text.isBlank_eq_false_iff.mp
          (Bool.not_eq_true _ ▸ h (role, face) (Dict.get?_eq_some_iff.mp hface)) }

/-- A draft has no fault exactly when its bindings make up a theme. -/
theorem fault?_eq_none_iff : draft.fault? = none ↔ (Bindings.ofDraft draft).Sound := by
  refine ⟨sound_of_fault?, fun hsound => ?_⟩
  cases hfault : draft.fault? with
  | none => rfl
  | some fault => exact absurd (has_of_fault? hfault) (hsound.not_has fault)

/-- A draft without a fault is the theme of its bindings. -/
theorem toTheme_eq_ok_iff {theme : Theme} :
    draft.toTheme = .ok theme ↔
      draft.fault? = none ∧ theme = ⟨draft.name, draft.colors, draft.fonts⟩ := by
  unfold toTheme
  cases draft.fault? with
  | none => simp [eq_comm]
  | some fault => simp

/-- A draft is refused for its fault. -/
theorem toTheme_eq_error_iff {e : BuildError} :
    draft.toTheme = .error e ↔ ∃ fault, draft.fault? = some fault ∧ e = .badTheme fault := by
  unfold toTheme
  cases draft.fault? with
  | none => simp
  | some fault => simp [eq_comm]

end ThemeDraft

namespace Theme

/-- What the three look-ups of a role give when it is a colour, a font, or unknown. -/
def Gives (theme : Theme) (b : Bindings) (role : String) : Option RoleKind → Prop
  | some .color => ∃ c, b.color role = some c ∧ theme.color role = .ok c ∧
      theme.font role = .error (.unknownRole role) ∧ theme.lookup role = .ok (.color c)
  | some .font => ∃ face, b.face role = some face ∧ theme.font role = .ok face ∧
      theme.color role = .error (.unknownRole role) ∧ theme.lookup role = .ok (.font face)
  | none => theme.color role = .error (.unknownRole role) ∧
      theme.font role = .error (.unknownRole role) ∧ theme.lookup role = .error (.unknownRole role)

/-- All bound roles are listed once, those of colours first, and each kind in ascending order. -/
structure Lists (theme : Theme) (b : Bindings) : Prop where
  nodup : theme.roles.Nodup
  ordered : ∃ colors fonts, theme.roles = colors ++ fonts ∧
    colors.Pairwise (· < ·) ∧ fonts.Pairwise (· < ·) ∧
    (∀ role, role ∈ colors ↔ (b.color role).isSome) ∧
    ∀ role, role ∈ fonts ↔ (b.face role).isSome

/-- What building comes to for some bindings: it fails for a fault that they have, and otherwise
gives a theme of these bindings. -/
structure BuiltFrom (built : Except BuildError Theme) (b : Bindings) : Prop where
  ok_iff : (∃ theme, built = .ok theme) ↔ b.Sound
  fault : ∀ e, built = .error e → ∃ fault, e = .badTheme fault ∧ b.Has fault
  gives : ∀ theme, built = .ok theme → ∀ role, ∃! kind, theme.Gives b role kind
  lists : ∀ theme, built = .ok theme → theme.Lists b

/-- The bindings of a finished theme. -/
def bindings (theme : Theme) : Bindings := ⟨theme.colors.get?, theme.fonts.get?⟩

variable {theme : Theme}

/-- Where no role is bound to a colour and to a face, all look-ups of a role agree. -/
theorem existsUnique_gives (h : theme.bindings.Sound) (role : String) :
    ∃! kind, theme.Gives theme.bindings role kind := by
  unfold Gives color font lookup bindings
  cases hcolor : theme.colors.get? role with
  | some c =>
    cases hface : theme.fonts.get? role with
    | some face =>
      exact absurd ⟨Option.isSome_of_eq_some hcolor, Option.isSome_of_eq_some hface⟩ (h.kind role)
    | none => exact ⟨some .color, by simp [hcolor], by rintro (_ | _ | _) <;> simp⟩
  | none =>
    cases hface : theme.fonts.get? role with
    | some face => exact ⟨some .font, by simp [hface], by rintro (_ | _ | _) <;> simp⟩
    | none => exact ⟨none, by simp, by rintro (_ | _ | _) <;> simp⟩

/-- Where no role is bound to a colour and to a face, the list of roles has each of them once. -/
theorem lists_bindings (h : theme.bindings.Sound) : theme.Lists theme.bindings where
  nodup := by
    refine List.nodup_append.mpr ⟨theme.colors.nodup_names, theme.fonts.nodup_names, ?_⟩
    rintro role hcolor _ hface rfl
    rw [Dict.mem_names_iff, ← Option.isSome_iff_exists] at hcolor hface
    exact h.kind role ⟨hcolor, hface⟩
  ordered := by
    refine ⟨theme.colors.names, theme.fonts.names, rfl, theme.colors.pairwise_names,
      theme.fonts.pairwise_names, fun role => ?_, fun role => ?_⟩
    · rw [Dict.mem_names_iff, ← Option.isSome_iff_exists]
      rfl
    · rw [Dict.mem_names_iff, ← Option.isSome_iff_exists]
      rfl

end Theme

/-- A draft is built from its bindings. -/
theorem ThemeDraft.builtFrom_toTheme (draft : ThemeDraft) :
    Theme.BuiltFrom draft.toTheme (.ofDraft draft) where
  ok_iff := by
    simp only [toTheme_eq_ok_iff, fault?_eq_none_iff, exists_and_left, exists_eq, and_true]
  fault := by
    intro e h
    obtain ⟨fault, hfault, rfl⟩ := toTheme_eq_error_iff.mp h
    exact ⟨fault, rfl, has_of_fault? hfault⟩
  gives := by
    intro theme h
    obtain ⟨hnone, rfl⟩ := toTheme_eq_ok_iff.mp h
    exact Theme.existsUnique_gives (fault?_eq_none_iff.mp hnone)
  lists := by
    intro theme h
    obtain ⟨hnone, rfl⟩ := toTheme_eq_ok_iff.mp h
    exact Theme.lists_bindings (fault?_eq_none_iff.mp hnone)

namespace Theme

/-- Calls in any order, and texts that can be read, build a theme exactly when every role has a
visible name, none is bound to a colour and to a face, and every face that is left has a visible
name. In the theme every role is a colour, a font or unknown by all look-ups alike, with what it was
bound to last, and the list of roles has each of them once. -/
theorem builtFrom_bindings :
    (∀ name steps, BuiltFrom (ThemeDraft.ofSteps name steps).toTheme (.ofSteps steps)) ∧
      ∀ text draft, (Value.parse? text).bind ThemeDraft.ofJson? = some draft →
        BuiltFrom (parse text) (.ofDraft draft) := by
  constructor
  · intro name steps
    rw [← ThemeDraft.ofDraft_ofSteps name steps]
    exact ThemeDraft.builtFrom_toTheme _
  · intro text draft hdraft
    have hparse : parse text = draft.toTheme := by
      unfold parse
      rw [hdraft]
    rw [hparse]
    exact draft.builtFrom_toTheme

/-- A role of each kind, each bound twice, the font first to a face without a name. -/
def rebound : List ThemeStep :=
  [.font "body" " ", .color "text" .black, .font "body" "Arial", .color "text" .white]

/-- A text that binds a role to a colour and to a face. -/
def twofold : String :=
  "\x7b\"colors\":\x7b\"ink\":\"#123456\"\x7d,\"fonts\":\x7b\"ink\":\"Arial\"\x7d\x7d"

/-- What was bound last counts, so a blank face may be replaced; a text that binds a role to a colour
and to a face is read, but it is no theme. -/
theorem builtFrom_bindings_rebound :
    (∃ theme, (ThemeDraft.ofSteps "night" rebound).toTheme = .ok theme ∧
      (Bindings.ofSteps rebound).Sound ∧
      (∃! kind, theme.Gives (.ofSteps rebound) "text" kind) ∧
      theme.lookup "text" = .ok (.color .white) ∧ theme.font "body" = .ok "Arial") ∧
    ∃ draft, (Value.parse? twofold).bind ThemeDraft.ofJson? = some draft ∧
      ¬(Bindings.ofDraft draft).Sound ∧
      ∃ fault, parse twofold = .error (.badTheme fault) ∧ (Bindings.ofDraft draft).Has fault := by
  obtain ⟨hsteps, htext⟩ := builtFrom_bindings
  constructor
  · have htheme : (ThemeDraft.ofSteps "night" rebound).toTheme = .ok ⟨"night", _, _⟩ :=
      ThemeDraft.toTheme_eq_ok_iff.mpr ⟨by decide +kernel, rfl⟩
    have hbuilt := hsteps "night" rebound
    exact ⟨_, htheme, hbuilt.ok_iff.mp ⟨_, htheme⟩, hbuilt.gives _ htheme "text",
      by decide +kernel, by decide +kernel⟩
  · obtain ⟨draft, hdraft⟩ : ∃ draft, (Value.parse? twofold).bind ThemeDraft.ofJson? = some draft :=
      Option.isSome_iff_exists.mp (by decide +kernel)
    have hbuilt := htext twofold draft hdraft
    cases hparse : parse twofold with
    | ok theme =>
      have hrefused : (parse twofold).isOk = false := by decide +kernel
      rw [hparse] at hrefused
      cases hrefused
    | error e =>
      obtain ⟨fault, rfl, hfault⟩ := hbuilt.fault e hparse
      exact ⟨draft, hdraft, fun hsound => hsound.not_has fault hfault, fault, rfl, hfault⟩

end Theme

end Folio
