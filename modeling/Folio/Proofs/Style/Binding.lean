import Folio.Proofs.Style.Registration
import Folio.Proofs.Style.Roles

/-!
# Binding

Binding looks only at the properties in effect of whole chains. Still it succeeds exactly when each
parent is registered and each role that the defaults or a style declare by themselves is bound,
with the base roles where the defaults are silent; for every declared role is in effect somewhere,
at the style that declares it. What is bound resolves to the nearest values, and fails only where
local overrides name a role that the theme lacks.
-/

namespace Folio

open StyleProperties

/-- Checks of a list succeed when the check of each element does. -/
theorem checkAll_eq_ok_iff {α β : Type} {check : α → Except BuildError β} {xs : List α} :
    checkAll check xs = .ok () ↔ ∀ x ∈ xs, ∃ y, check x = .ok y := by
  induction xs with
  | nil =>
    constructor
    · intro _ x hx
      cases hx
    · intro _
      rfl
  | cons x xs ih =>
    unfold checkAll
    rw [bind_eq_ok_iff, List.forall_mem_cons, ih]
    constructor
    · rintro ⟨y, hy, hxs⟩
      exact ⟨⟨y, hy⟩, hxs⟩
    · rintro ⟨⟨y, hy⟩, hxs⟩
      exact ⟨y, hy, hxs⟩

/-- A check of all elements fails as the check of one of them. -/
theorem exists_of_checkAll_eq_error {α β : Type} {check : α → Except BuildError β} {xs : List α}
    {e : BuildError} (h : checkAll check xs = .error e) : ∃ x ∈ xs, check x = .error e := by
  induction xs with
  | nil => cases h
  | cons x xs ih =>
    rcases bind_eq_error_iff.mp h with hx | ⟨_, _, hxs⟩
    · exact ⟨x, List.mem_cons_self, hx⟩
    · obtain ⟨x', hx', he⟩ := ih hxs
      exact ⟨x', List.mem_cons_of_mem _ hx', he⟩

namespace Stylesheet

variable {sheet : Stylesheet} {theme : Theme} {styling : Styling}

theorem mem_names_iff {id : String} : id ∈ sheet.styles.names ↔ sheet.contains id = true :=
  Dict.mem_names_iff.trans contains_iff.symm

/-- Every parent that a style names is registered. -/
def Rooted (sheet : Stylesheet) : Prop :=
  ∀ id d p, sheet.get? id = some d → d.basedOn = some p → sheet.contains p = true

/-- Where all parents are registered, the chain of every registered style can be followed to a style
without a parent, and only there. -/
theorem rooted_iff (h : Acyclic sheet.styles) :
    sheet.Rooted ↔
      ∀ id, sheet.contains id = true → ∃ path, Ascends sheet.styles (some id) path none := by
  constructor
  · intro hrooted id hid
    obtain ⟨d, hd⟩ := contains_iff.mp hid
    have hup := ascends_climb sheet.styles [] (some id)
    have htop := h.topmost_climb (some id)
    cases hstop : (climb sheet.styles [] (some id)).stop with
    | none =>
      rw [hstop] at hup
      exact ⟨_, hup⟩
    | some p =>
      rw [hstop] at hup
      obtain ⟨child, e, he, hp⟩ := hup.exists_child hd (htop p hstop)
      have hnone := contains_eq_false_iff.mpr (htop p hstop)
      rw [hrooted child e p he hp] at hnone
      cases hnone
  · intro hchain id d p hd hp
    obtain ⟨path, hway⟩ := hchain id (contains_iff.mpr ⟨d, hd⟩)
    cases hway with
    | up hd' hway =>
      have heq := hd.symm.trans hd'
      cases heq
      rw [hp] at hway
      cases hway with
      | up hparent _ => exact contains_iff.mpr ⟨_, hparent⟩

/-- The defaults, or what a style declares by itself. -/
inductive HasLayer (sheet : Stylesheet) : StyleProperties → Prop
  | defaults : HasLayer sheet sheet.defaults
  | style {id : String} {d : StyleDefinition} : sheet.get? id = some d → HasLayer sheet d.properties

/-- A role that is named by the defaults or by a style itself, or the base role where the defaults
are silent. -/
def Requires (sheet : Stylesheet) (kind : RoleKind) (role : String) : Prop :=
  (∃ p, sheet.HasLayer p ∧ kind.Names p role) ∨ kind.Silent sheet.defaults ∧ role = kind.base

/-- The styles on a way up are layers of the stylesheet. -/
theorem hasLayer_of_ascends {start stop : Option String} {path : List StyleDefinition}
    (h : Ascends sheet.styles start path stop) {p : StyleProperties}
    (hp : p ∈ path.map (·.properties)) : sheet.HasLayer p := by
  obtain ⟨d, hd, rfl⟩ := List.mem_map.mp hp
  obtain ⟨id, hid⟩ := h.registered hd
  exact .style hid

end Stylesheet

/-- Layers that do not settle name a role that the theme does not bind, or a role that the
stylesheet requires is not bound. -/
theorem Styling.exists_unbound_of_settle_eq_error {styling : Styling}
    {layers : List StyleProperties} {e : BuildError} (h : styling.settle (stack layers) = .error e) :
    ∃ (kind : RoleKind) (role : String), e = .unknownRole role ∧
      kind.bound styling.theme role = false ∧
      ((∃ p ∈ layers, kind.Names p role) ∨ styling.sheet.Requires kind role) := by
  obtain ⟨kind, role, rfl, hrole, hmissing⟩ := exists_of_settle_eq_error h
  refine ⟨kind, role, rfl, hmissing, ?_⟩
  rcases hrole.cases with ⟨p, hp, hnames⟩ | ⟨hbase, hsilent⟩
  · rcases List.mem_append.mp hp with hp | hp
    · exact .inl ⟨p, hp, hnames⟩
    · obtain rfl := List.mem_singleton.mp hp
      exact .inr (.inl ⟨_, .defaults, hnames⟩)
  · have hdefaults := hsilent styling.sheet.defaults
      (List.mem_append_right _ (List.mem_singleton.mpr rfl))
    exact .inr (.inr ⟨hdefaults, hbase⟩)

/-- All parents are registered and all required roles are bound. -/
structure Stylesheet.Fits (sheet : Stylesheet) (theme : Theme) : Prop where
  rooted : sheet.Rooted
  bound : ∀ kind role, sheet.Requires kind role → kind.bound theme role = true

/-- A registered style that does not resolve has overrides that name an unbound role, or a required
role is unbound. -/
theorem Styling.exists_unbound_of_resolve_eq_error {styling : Styling}
    (h : Acyclic styling.sheet.styles) (hrooted : styling.sheet.Rooted) {id : String}
    (hid : styling.sheet.contains id = true) {overrides : StyleProperties} {e : BuildError}
    (he : styling.resolve id overrides = .error e) :
    ∃ (kind : RoleKind) (role : String), e = .unknownRole role ∧
      kind.bound styling.theme role = false ∧
      (kind.Names overrides role ∨ styling.sheet.Requires kind role) := by
  obtain ⟨path, hway⟩ := (Stylesheet.rooted_iff h).mp hrooted id hid
  have hdeclared : styling.declared (some id) overrides =
      .ok (stack (overrides :: path.map (·.properties))) :=
    (declared_eq_ok_iff h).mpr ⟨path, hway, rfl⟩
  unfold resolve at he
  rw [hdeclared] at he
  obtain ⟨kind, role, rfl, hmissing, hrole⟩ := exists_unbound_of_settle_eq_error he
  refine ⟨kind, role, rfl, hmissing, ?_⟩
  rcases hrole with ⟨p, hp, hnames⟩ | hrequires
  · rcases List.mem_cons.mp hp with rfl | hp
    · exact .inl hnames
    · exact .inr (.inl ⟨p, Stylesheet.hasLayer_of_ascends hway hp, hnames⟩)
  · exact .inr hrequires

namespace Stylesheet

variable {sheet : Stylesheet} {theme : Theme} {styling : Styling}

/-- A role that is not bound is not required. -/
theorem Fits.not_requires (hfits : sheet.Fits theme) {kind : RoleKind} {role : String}
    (hmissing : kind.bound theme role = false) : ¬sheet.Requires kind role := by
  intro hrequires
  have hbound := hfits.bound kind role hrequires
  rw [hmissing] at hbound
  cases hbound

/-- The defaults alone fail to settle for a required role. -/
theorem exists_required_of_settle_eq_error {e : BuildError}
    (he : Styling.settle ⟨theme, sheet⟩ {} = .error e) :
    ∃ (kind : RoleKind) (role : String), e = .unknownRole role ∧ sheet.Requires kind role ∧
      kind.bound theme role = false := by
  rw [← stack_nil] at he
  obtain ⟨kind, role, rfl, hmissing, hrole⟩ := Styling.exists_unbound_of_settle_eq_error he
  rcases hrole with ⟨p, hp, _⟩ | hrequires
  · cases hp
  · exact ⟨kind, role, rfl, hrequires, hmissing⟩

/-- A registered style without overrides fails to resolve for a required role. -/
theorem exists_required_of_resolve_eq_error (h : Acyclic sheet.styles) (hrooted : sheet.Rooted)
    {id : String} (hid : sheet.contains id = true) {e : BuildError}
    (he : Styling.resolve ⟨theme, sheet⟩ id {} = .error e) :
    ∃ (kind : RoleKind) (role : String), e = .unknownRole role ∧ sheet.Requires kind role ∧
      kind.bound theme role = false := by
  obtain ⟨kind, role, rfl, hmissing, hrole⟩ :=
    Styling.exists_unbound_of_resolve_eq_error h hrooted hid he
  rcases hrole with hnames | hrequires
  · exact absurd hnames RoleKind.not_names_empty
  · exact ⟨kind, role, rfl, hrequires, hmissing⟩

/-- Binding checks the chains of the styles, the defaults and the styles. -/
theorem bind_eq_ok_iff_checks :
    sheet.bind theme = .ok styling ↔ styling = ⟨theme, sheet⟩ ∧
      (∀ id, sheet.contains id = true → ∃ path, sheet.chain id = .ok path) ∧
      (∃ s, Styling.settle ⟨theme, sheet⟩ {} = .ok s) ∧
      ∀ id, sheet.contains id = true → ∃ s, Styling.resolve ⟨theme, sheet⟩ id {} = .ok s := by
  simp only [← mem_names_iff, ← checkAll_eq_ok_iff]
  unfold bind
  constructor
  · intro h
    obtain ⟨_, hchains, h⟩ := bind_eq_ok_iff.mp h
    obtain ⟨s, hdefaults, h⟩ := bind_eq_ok_iff.mp h
    obtain ⟨_, hstyles, h⟩ := bind_eq_ok_iff.mp h
    cases h
    exact ⟨rfl, hchains, ⟨s, hdefaults⟩, hstyles⟩
  · rintro ⟨rfl, hchains, ⟨s, hdefaults⟩, hstyles⟩
    exact bind_eq_ok_iff.mpr ⟨_, hchains, bind_eq_ok_iff.mpr ⟨s, hdefaults,
      bind_eq_ok_iff.mpr ⟨_, hstyles, rfl⟩⟩⟩

/-- A role that the defaults or a style declare is in effect in the defaults or in that style, so
what is bound has it bound. -/
theorem Fits.of_checks (h : Acyclic sheet.styles)
    (hchains : ∀ id, sheet.contains id = true → ∃ path, sheet.chain id = .ok path)
    (hdefaults : ∃ s, Styling.settle ⟨theme, sheet⟩ {} = .ok s)
    (hstyles : ∀ id, sheet.contains id = true → ∃ s, Styling.resolve ⟨theme, sheet⟩ id {} = .ok s) :
    sheet.Fits theme := by
  constructor
  · refine (rooted_iff h).mpr fun id hid => ?_
    obtain ⟨path, hpath⟩ := hchains id hid
    exact ⟨path, (chain_eq_ok_iff h).mp hpath⟩
  · intro kind role hrequires
    obtain ⟨s, hs⟩ := hdefaults
    rw [← stack_nil] at hs
    have hs := Styling.nearestWins_of_settle hs
    rcases hrequires with ⟨p, hlayer, hnames⟩ | ⟨hsilent, rfl⟩
    · cases hlayer with
      | defaults => exact hs.bound (RoleKind.effective_cons_of_names hnames)
      | @style id d hd =>
        obtain ⟨s, hs⟩ := hstyles id (contains_iff.mpr ⟨d, hd⟩)
        obtain ⟨path, hway, hs⟩ := (Styling.resolve_eq_ok_iff h).mp hs
        cases hway with
        | up hd' _ =>
          have heq := hd.symm.trans hd'
          cases heq
          -- the style itself is the first layer that is not empty
          refine hs.bound ((RoleKind.effective_cons_of_silent RoleKind.silent_empty).mpr ?_)
          exact RoleKind.effective_cons_of_names hnames
    · exact hs.bound ((RoleKind.effective_cons_of_silent hsilent).mpr RoleKind.effective_nil)

/-- Where all parents are registered and the required roles are bound, all checks succeed. -/
theorem Fits.bind (h : Acyclic sheet.styles) (hfits : sheet.Fits theme) :
    sheet.bind theme = .ok ⟨theme, sheet⟩ := by
  refine bind_eq_ok_iff_checks.mpr ⟨rfl, fun id hid => ?_, ?_, fun id hid => ?_⟩
  · obtain ⟨path, hway⟩ := (rooted_iff h).mp hfits.rooted id hid
    exact ⟨path, (chain_eq_ok_iff h).mpr hway⟩
  · cases hs : Styling.settle ⟨theme, sheet⟩ {} with
    | ok s => exact ⟨s, rfl⟩
    | error e =>
      obtain ⟨_, _, _, hrequires, hmissing⟩ := exists_required_of_settle_eq_error hs
      exact absurd hrequires (hfits.not_requires hmissing)
  · cases hs : Styling.resolve ⟨theme, sheet⟩ id {} with
    | ok s => exact ⟨s, rfl⟩
    | error e =>
      obtain ⟨_, _, _, hrequires, hmissing⟩ :=
        exists_required_of_resolve_eq_error h hfits.rooted hid hs
      exact absurd hrequires (hfits.not_requires hmissing)

/-- Binding succeeds exactly for the themes that the stylesheet fits. -/
theorem bind_eq_ok_iff_fits (h : Acyclic sheet.styles) :
    sheet.bind theme = .ok styling ↔ styling = ⟨theme, sheet⟩ ∧ sheet.Fits theme := by
  constructor
  · intro hb
    obtain ⟨rfl, hchains, hdefaults, hstyles⟩ := bind_eq_ok_iff_checks.mp hb
    exact ⟨rfl, .of_checks h hchains hdefaults hstyles⟩
  · rintro ⟨rfl, hfits⟩
    exact hfits.bind h

/-- A parent that is not registered is what binding reports first. -/
theorem exists_bind_eq_unknownStyle (h : Acyclic sheet.styles) (hrooted : ¬sheet.Rooted) :
    ∃ id d p, sheet.get? id = some d ∧ d.basedOn = some p ∧ sheet.contains p = false ∧
      sheet.bind theme = .error (.unknownStyle p) := by
  cases hc : checkAll sheet.chain sheet.styles.names with
  | ok =>
    refine absurd ((rooted_iff h).mpr fun id hid => ?_) hrooted
    obtain ⟨path, hpath⟩ := checkAll_eq_ok_iff.mp hc id (mem_names_iff.mpr hid)
    exact ⟨path, (chain_eq_ok_iff h).mp hpath⟩
  | error e =>
    obtain ⟨id, hid, hchain⟩ := exists_of_checkAll_eq_error hc
    obtain ⟨path, p, hway, hp, rfl⟩ := (chain_eq_error_iff h).mp hchain
    obtain ⟨d, hd⟩ := contains_iff.mp (mem_names_iff.mp hid)
    obtain ⟨id', child, hchild, hparent⟩ := hway.exists_child hd hp
    refine ⟨id', child, p, hchild, hparent, contains_eq_false_iff.mpr hp, ?_⟩
    unfold bind
    rw [hc]
    rfl

/-- With all parents registered, binding reports a required role that is not bound. -/
theorem exists_required_of_bind_eq_error (h : Acyclic sheet.styles) (hrooted : sheet.Rooted)
    {e : BuildError} (he : sheet.bind theme = .error e) :
    ∃ (kind : RoleKind) (role : String), e = .unknownRole role ∧ sheet.Requires kind role ∧
      kind.bound theme role = false := by
  unfold bind at he
  rcases bind_eq_error_iff.mp he with hc | ⟨_, _, he⟩
  · obtain ⟨id, hid, hchain⟩ := exists_of_checkAll_eq_error hc
    obtain ⟨path, hway⟩ := (rooted_iff h).mp hrooted id (mem_names_iff.mp hid)
    rw [(chain_eq_ok_iff h).mpr hway] at hchain
    cases hchain
  rcases bind_eq_error_iff.mp he with hs | ⟨_, _, he⟩
  · exact exists_required_of_settle_eq_error hs
  rcases bind_eq_error_iff.mp he with hc | ⟨_, _, he⟩
  · obtain ⟨id, hid, hs⟩ := exists_of_checkAll_eq_error hc
    exact exists_required_of_resolve_eq_error h hrooted (mem_names_iff.mp hid) hs
  · cases he

/-- Binding succeeds exactly when every parent is registered and every required role is bound. A
parent that is not registered is reported before any role, and else a required role that is not
bound in its kind. What is bound fails to resolve only for a role that the overrides name. -/
theorem Reachable.bind_iff_rooted_and_bound (h : sheet.Reachable) (theme : Theme) :
    ((∃ styling, sheet.bind theme = .ok styling) ↔
      sheet.Rooted ∧ ∀ kind role, sheet.Requires kind role → kind.bound theme role = true) ∧
    (¬sheet.Rooted → ∃ id d p, sheet.get? id = some d ∧ d.basedOn = some p ∧
      sheet.contains p = false ∧ sheet.bind theme = .error (.unknownStyle p)) ∧
    (sheet.Rooted → ∀ e, sheet.bind theme = .error e →
      ∃ (kind : RoleKind) (role : String), e = .unknownRole role ∧ sheet.Requires kind role ∧
        kind.bound theme role = false) ∧
    ∀ styling, sheet.bind theme = .ok styling → ∀ id overrides e, sheet.contains id = true →
      styling.resolve id overrides = .error e →
      ∃ (kind : RoleKind) (role : String), e = .unknownRole role ∧ kind.Names overrides role ∧
        kind.bound theme role = false := by
  have hacyclic := h.coherent.acyclic
  refine ⟨⟨fun ⟨styling, hb⟩ => ?_, fun ⟨hrooted, hbound⟩ => ?_⟩,
    exists_bind_eq_unknownStyle hacyclic,
    fun hrooted e => exists_required_of_bind_eq_error hacyclic hrooted,
    fun styling hb id overrides e hid he => ?_⟩
  · obtain ⟨_, hfits⟩ := (bind_eq_ok_iff_fits hacyclic).mp hb
    exact ⟨hfits.rooted, hfits.bound⟩
  · exact ⟨_, Fits.bind hacyclic ⟨hrooted, hbound⟩⟩
  · obtain ⟨rfl, hfits⟩ := (bind_eq_ok_iff_fits hacyclic).mp hb
    obtain ⟨kind, role, rfl, hmissing, hrole⟩ :=
      Styling.exists_unbound_of_resolve_eq_error hacyclic hfits.rooted hid he
    rcases hrole with hnames | hrequires
    · exact ⟨kind, role, rfl, hnames, hmissing⟩
    · exact absurd hrequires (hfits.not_requires hmissing)

/-- A theme with one colour and one font. -/
def plainTheme : Theme := ⟨"plain", .ofList [("text", .black)], .ofList [("body", "Serif")]⟩

/-- Quotations in italics. -/
def quote : StyleDefinition :=
  { id := "Quote", basedOn := some "Body", properties := italic {} true }

/-- Body text, upright and not bold. -/
def body : StyleDefinition := { id := "Body", properties := bold (italic {} false) false }

/-- The two styles, the child registered before its parent. -/
def letter : Stylesheet := empty.after (.all [quote, body])

theorem reachable_letter : letter.Reachable := .after _ (.withDefaults {})

/-- The same stylesheet with a style that names another font role. -/
def letterWithCode : Stylesheet :=
  letter.after (.one { id := "Code", properties := fontRole {} "mono" })

/-- A style that names a font role which the theme lacks is refused for that role. -/
theorem Reachable.bind_iff_rooted_and_bound_missing_font :
    letterWithCode.Reachable ∧ ∃ kind : RoleKind,
      letterWithCode.bind plainTheme = .error (.unknownRole "mono") ∧
        letterWithCode.Requires kind "mono" ∧ kind.bound plainTheme "mono" = false := by
  have h : letterWithCode.Reachable := reachable_letter.after _
  obtain ⟨_, hdangling, hrequired, _⟩ := h.bind_iff_rooted_and_bound plainTheme
  have he : letterWithCode.bind plainTheme = .error (.unknownRole "mono") := by
    have herror : (match letterWithCode.bind plainTheme with
      | .ok _ => none
      | .error e => some e) = some (BuildError.unknownRole "mono") := by decide +kernel
    split at herror
    · cases herror
    · rename_i hb
      rw [hb, Option.some.inj herror]
  have hrooted : letterWithCode.Rooted := by
    by_contra hnot
    obtain ⟨_, _, _, _, _, _, hunknown⟩ := hdangling hnot
    rw [he] at hunknown
    cases hunknown
  obtain ⟨kind, role, hrole, hrequires, hmissing⟩ := hrequired hrooted _ he
  cases hrole
  exact ⟨h, kind, he, hrequires, hmissing⟩

/-- In what is bound every registered style has a chain. A style resolves exactly to the nearest
values of its overrides, its chain and the defaults; a run has what lies around it between the chain
of its own style, if it has one, and the defaults. -/
theorem Reachable.resolve_iff_nearestWins (h : sheet.Reachable)
    (hb : sheet.bind theme = .ok styling) :
    (∀ id, sheet.contains id = true → ∃ path, Ascends sheet.styles (some id) path none) ∧
    (∀ id path overrides s, Ascends sheet.styles (some id) path none →
      (styling.resolve id overrides = .ok s ↔
        NearestWins theme (overrides :: path.map (·.properties) ++ [sheet.defaults]) s)) ∧
    ∀ around style path overrides s, Ascends sheet.styles style path none →
      (styling.resolveRun around style overrides = .ok s ↔
        NearestWins theme (overrides :: path.map (·.properties) ++ [around, sheet.defaults]) s) := by
  have hacyclic := h.coherent.acyclic
  obtain ⟨rfl, hfits⟩ := (bind_eq_ok_iff_fits hacyclic).mp hb
  refine ⟨(rooted_iff hacyclic).mp hfits.rooted, fun id path overrides s hway => ?_,
    fun around style path overrides s hway => ?_⟩
  · exact (Styling.resolve_eq_ok_iff hacyclic).trans hway.exists_root_iff
  · have hrun : Styling.resolveRun ⟨theme, sheet⟩ (stack [around]) style overrides = .ok s ↔ _ :=
      Styling.resolveRun_eq_ok_iff hacyclic
    rw [stack_singleton] at hrun
    rw [List.append_cons]
    exact hrun.trans hway.exists_root_iff

/-- A quotation resolves to what is nearest in its overrides, its own properties, those of body text
and the defaults. -/
theorem Reachable.resolve_iff_nearestWins_letter :
    letter.Reachable ∧ ∃ styling, letter.bind plainTheme = .ok styling ∧ ∀ overrides s,
      styling.resolve "Quote" overrides = .ok s ↔
        NearestWins plainTheme [overrides, quote.properties, body.properties, letter.defaults] s := by
  obtain ⟨styling, hb⟩ : ∃ styling, letter.bind plainTheme = .ok styling :=
    exists_eq_ok_of_isOk (by decide +kernel)
  have hbody : Ascends letter.styles (some "Body") [body] none :=
    .up (by decide +kernel) (.here none)
  have hquote : Ascends letter.styles (some "Quote") [quote, body] none :=
    .up (by decide +kernel) hbody
  obtain ⟨_, hresolve, _⟩ := reachable_letter.resolve_iff_nearestWins hb
  exact ⟨reachable_letter, styling, hb, fun overrides s =>
    hresolve "Quote" [quote, body] overrides s hquote⟩

end Stylesheet

end Folio
