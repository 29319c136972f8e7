import Folio.Proofs.Style.Ascent
import Folio.Style.Json

/-!
# Registration

Styles come into a stylesheet one by one or many at once, and a call that fails leaves the
stylesheet as it was. However the calls follow each other, every style stays under its own id and no
parents lead back to where they began; so looking for a cycle through the new style alone is enough.
-/

namespace Folio

/-- A call that adds styles to a stylesheet. -/
inductive Registration where
  | one (d : StyleDefinition)
  | all (ds : List StyleDefinition)

namespace Stylesheet

variable {sheet sheet' : Stylesheet} {d : StyleDefinition}

/-- What adds the styles of a call. -/
def adding : Registration → Call Unit
  | .one d => add d
  | .all ds => addAll ds

/-- What a call answers: the stylesheet with the new styles, or why they were refused. -/
def answer (sheet : Stylesheet) (call : Registration) : Except BuildError Stylesheet :=
  (adding call).result sheet

/-- The stylesheet that a call leaves, whether it succeeded or failed. -/
def after (sheet : Stylesheet) (call : Registration) : Stylesheet := (adding call).left sheet

/-- A stylesheet that began with defaults alone or was read from a text, after any calls. -/
inductive Reachable : Stylesheet → Prop
  | withDefaults (defaults : StyleProperties) : Reachable (withDefaults defaults)
  | parse {text : String} {sheet : Stylesheet} : Stylesheet.parse text = .ok sheet → Reachable sheet
  | after {sheet : Stylesheet} (call : Registration) : Reachable sheet → Reachable (sheet.after call)

/-- Every style is under its own id, and no parents lead back to where they began. -/
structure Coherent (sheet : Stylesheet) : Prop where
  /-- Every style is registered under its own id. -/
  keyed : Keyed sheet.styles
  /-- No way up comes back to its start. -/
  acyclic : Acyclic sheet.styles

/-- What adding a style comes to: the stylesheet is looked at before it is changed. -/
theorem run_add (sheet : Stylesheet) (d : StyleDefinition) :
    (add d).run sheet =
      if sheet.contains d.id then .error (.duplicateStyle d.id) sheet
      else
        match sheet.cycle? d with
        | some chain => .error (.cyclicInheritance d.id chain) sheet
        | none => .ok () { sheet with styles := sheet.styles.insert d.id d } := by
  rw [add, EStateM.run_bind, EStateM.run_get]
  dsimp only
  split
  · rfl
  · cases sheet.cycle? d <;> rfl

/-- A style whose id is taken is refused for that. -/
theorem register_of_contains (h : sheet.contains d.id = true) :
    sheet.register d = .error (.duplicateStyle d.id) := by
  simp only [register, Call.result, run_add, h, ite_true]

/-- A style that closes a cycle is refused for that. -/
theorem register_of_cycle {cycle : List String} (h : sheet.contains d.id = false)
    (hc : sheet.cycle? d = some cycle) :
    sheet.register d = .error (.cyclicInheritance d.id cycle) := by
  simp only [register, Call.result, run_add, h, Bool.false_eq_true, ite_false, hc]

/-- Any other style is added. -/
theorem register_of_no_cycle (h : sheet.contains d.id = false) (hc : sheet.cycle? d = none) :
    sheet.register d = .ok { sheet with styles := sheet.styles.insert d.id d } := by
  simp only [register, Call.result, run_add, h, Bool.false_eq_true, ite_false, hc]

/-- A style that is registered has a new id, closes no cycle, and is the only thing added. -/
theorem register_eq_ok (h : sheet.register d = .ok sheet') :
    sheet.contains d.id = false ∧ sheet.cycle? d = none ∧
      sheet' = { sheet with styles := sheet.styles.insert d.id d } := by
  cases hd : sheet.contains d.id with
  | true =>
    rw [register_of_contains hd] at h
    cases h
  | false =>
    cases hc : sheet.cycle? d with
    | some cycle =>
      rw [register_of_cycle hd hc] at h
      cases h
    | none =>
      rw [register_of_no_cycle hd hc] at h
      cases h
      exact ⟨rfl, rfl, rfl⟩

/-- A style with a new id closes the cycle that its parents make when they lead back to it. -/
theorem cycle?_eq_some_iff (h : Acyclic sheet.styles) (hd : sheet.contains d.id = false)
    {cycle : List String} :
    sheet.cycle? d = some cycle ↔
      ∃ path, Ascends sheet.styles d.basedOn path (some d.id) ∧
        cycle = d.id :: (path.map (·.id) ++ [d.id]) := by
  have hloop : ∀ path again, climb sheet.styles [d.id] d.basedOn = .loop path again ↔
      again = d.id ∧ Ascends sheet.styles d.basedOn path (some d.id) := fun path again =>
    h.climb_eq_loop_iff (contains_eq_false_iff.mp hd)
  unfold cycle?
  constructor
  · intro hc
    cases hclimb : climb sheet.styles [d.id] d.basedOn with
    | root => rw [hclimb] at hc; cases hc
    | dangling => rw [hclimb] at hc; cases hc
    | loop path again =>
      rw [hclimb] at hc
      cases hc
      obtain ⟨rfl, hway⟩ := (hloop path again).mp hclimb
      exact ⟨path, hway, rfl⟩
  · rintro ⟨path, hway, rfl⟩
    rw [(hloop path d.id).mpr ⟨rfl, hway⟩]

/-- A style with a new id closes no cycle when its parents do not lead back to it. -/
theorem cycle?_eq_none_iff (h : Acyclic sheet.styles) (hd : sheet.contains d.id = false) :
    sheet.cycle? d = none ↔ ∀ path, ¬Ascends sheet.styles d.basedOn path (some d.id) := by
  constructor
  · intro hc path hway
    rw [(cycle?_eq_some_iff h hd).mpr ⟨path, hway, rfl⟩] at hc
    cases hc
  · intro hno
    cases hc : sheet.cycle? d with
    | none => rfl
    | some cycle =>
      obtain ⟨path, hway, _⟩ := (cycle?_eq_some_iff h hd).mp hc
      exact absurd hway (hno path)

/-- Only a taken id makes a duplicate. -/
theorem register_eq_duplicate_iff :
    sheet.register d = .error (.duplicateStyle d.id) ↔ sheet.contains d.id = true := by
  constructor
  · intro hr
    cases hd : sheet.contains d.id with
    | true => rfl
    | false =>
      cases hc : sheet.cycle? d with
      | some cycle => rw [register_of_cycle hd hc] at hr; cases hr
      | none => rw [register_of_no_cycle hd hc] at hr; cases hr
  · exact register_of_contains

/-- A style is refused for a cycle when its parents lead back to it, and the cycle is that way. -/
theorem register_eq_cyclic_iff (h : Acyclic sheet.styles) {id : String} {cycle : List String} :
    sheet.register d = .error (.cyclicInheritance id cycle) ↔
      sheet.contains d.id = false ∧ id = d.id ∧
        ∃ path, Ascends sheet.styles d.basedOn path (some d.id) ∧
          cycle = d.id :: (path.map (·.id) ++ [d.id]) := by
  constructor
  · intro hr
    cases hd : sheet.contains d.id with
    | true => rw [register_of_contains hd] at hr; cases hr
    | false =>
      cases hc : sheet.cycle? d with
      | none => rw [register_of_no_cycle hd hc] at hr; cases hr
      | some found =>
        rw [register_of_cycle hd hc] at hr
        cases hr
        exact ⟨rfl, rfl, (cycle?_eq_some_iff h hd).mp hc⟩
  · rintro ⟨hd, rfl, hcycle⟩
    exact register_of_cycle hd ((cycle?_eq_some_iff h hd).mpr hcycle)

namespace Call

variable {call : Call Unit}

/-- A call that fails leaves the stylesheet as it was. -/
def Atomic (call : Call Unit) : Prop :=
  ∀ (sheet : Stylesheet) (e : BuildError) (left : Stylesheet),
    call.run sheet = .error e left → left = sheet

/-- An atomic call that fails leaves the stylesheet as it was. -/
theorem Atomic.left_of_result_eq_error (hcall : call.Atomic) {e : BuildError}
    (h : call.result sheet = .error e) : call.left sheet = sheet := by
  unfold result at h
  unfold left
  cases hrun : call.run sheet with
  | ok _ next =>
    rw [hrun] at h
    cases h
  | error e' next => exact hcall sheet e' next hrun

/-- A call that succeeds leaves its result. -/
theorem left_of_result_eq_ok (h : call.result sheet = .ok sheet') : call.left sheet = sheet' := by
  unfold result at h
  unfold left
  cases hrun : call.run sheet with
  | ok _ next =>
    rw [hrun] at h
    exact Except.ok.inj h
  | error e next =>
    rw [hrun] at h
    cases h

/-- One call after another has the result of the second on the result of the first. -/
theorem result_bind (first : Call Unit) (second : Unit → Call Unit) (sheet : Stylesheet) :
    result (first >>= second) sheet = first.result sheet >>= (second ()).result := by
  unfold result
  rw [EStateM.run_bind]
  cases first.run sheet <;> rfl

end Call

/-- Where one of many styles is refused, the stylesheet is left as it was. -/
theorem run_addAll (sheet : Stylesheet) (ds : List StyleDefinition) :
    (addAll ds).run sheet =
      match (ds.forM add).run sheet with
      | .ok _ copy => .ok () copy
      | .error e _ => .error e sheet := by
  rw [addAll, EStateM.run_bind, EStateM.run_get]
  dsimp only
  cases (ds.forM add).run sheet <;> rfl

/-- Adding styles to a copy comes to the same as adding them one after another. -/
theorem registerAll_eq (sheet : Stylesheet) (ds : List StyleDefinition) :
    sheet.registerAll ds = Call.result (ds.forM add) sheet := by
  unfold registerAll Call.result
  rw [run_addAll]
  cases (ds.forM add).run sheet <;> rfl

theorem registerAll_nil (sheet : Stylesheet) : sheet.registerAll [] = .ok sheet := rfl

/-- The first of some styles is registered before the others. -/
theorem registerAll_cons (sheet : Stylesheet) (d : StyleDefinition) (ds : List StyleDefinition) :
    sheet.registerAll (d :: ds) = sheet.register d >>= fun next => next.registerAll ds := by
  simp only [registerAll_eq]
  exact Call.result_bind (add d) (fun _ => ds.forM add) sheet

/-- A style is looked at before it is added. -/
theorem atomic_add (d : StyleDefinition) : (add d).Atomic := by
  intro sheet e left h
  rw [run_add] at h
  split at h
  · cases h
    rfl
  · split at h
    · cases h
      rfl
    · cases h

/-- Of styles that are refused only a copy has taken some. -/
theorem atomic_addAll (ds : List StyleDefinition) : (addAll ds).Atomic := by
  intro sheet e left h
  rw [run_addAll] at h
  split at h
  · cases h
  · cases h
    rfl

/-- A call that fails leaves the stylesheet as it was. -/
theorem after_of_answer_eq_error {call : Registration} {e : BuildError}
    (h : sheet.answer call = .error e) : sheet.after call = sheet := by
  cases call with
  | one d => exact (atomic_add d).left_of_result_eq_error h
  | all ds => exact (atomic_addAll ds).left_of_result_eq_error h

namespace Coherent

theorem withDefaults (defaults : StyleProperties) : Coherent (withDefaults defaults) :=
  ⟨keyed_empty, acyclic_empty⟩

theorem register (h : Coherent sheet) (hr : sheet.register d = .ok sheet') : Coherent sheet' := by
  obtain ⟨hd, hc, rfl⟩ := register_eq_ok hr
  exact ⟨h.keyed.insert d, h.acyclic.insert ((cycle?_eq_none_iff h.acyclic hd).mp hc)⟩

/-- Registering styles one after another keeps a stylesheet coherent. -/
theorem registerAll (h : Coherent sheet) {ds : List StyleDefinition}
    (hr : sheet.registerAll ds = .ok sheet') : Coherent sheet' := by
  induction ds generalizing sheet with
  | nil =>
    cases hr
    exact h
  | cons d rest ih =>
    rw [registerAll_cons] at hr
    obtain ⟨next, hd, hrest⟩ := bind_eq_ok_iff.mp hr
    exact ih (h.register hd) hrest

/-- No call makes a stylesheet incoherent. -/
theorem after (h : Coherent sheet) (call : Registration) : Coherent (sheet.after call) := by
  cases ha : sheet.answer call with
  | error e =>
    rw [after_of_answer_eq_error ha]
    exact h
  | ok sheet' =>
    have hleft : sheet.after call = sheet' := Call.left_of_result_eq_ok ha
    rw [hleft]
    cases call with
    | one d => exact h.register ha
    | all ds => exact h.registerAll ha

end Coherent

/-- A stylesheet read from a text holds the styles that the text lists, registered in their
order. -/
theorem exists_of_parse_eq_ok {text : String} (h : parse text = .ok sheet) :
    ∃ defaults ds, (withDefaults defaults).registerAll ds = .ok sheet := by
  unfold parse at h
  extract_lets parts at h
  clear_value parts
  cases parts with
  | none => cases h
  | some parts => exact ⟨parts.1, parts.2, h⟩

/-- Every stylesheet that calls can make is coherent. -/
theorem Reachable.coherent (h : Reachable sheet) : Coherent sheet := by
  induction h with
  | withDefaults defaults => exact .withDefaults defaults
  | parse h =>
    obtain ⟨defaults, ds, hr⟩ := exists_of_parse_eq_ok h
    exact (Coherent.withDefaults defaults).registerAll hr
  | after call _ ih => exact ih.after call

/-- In every stylesheet that calls can make, each style is under its own id, and a way up passes no
style twice and can be followed to the top. Registration refuses an id that is taken, and else a
style whose parents lead back to it, with the way from the style to itself as the cycle; any other
style is added and nothing else changes. A failed call changes nothing, and the chains of registered
styles never turn out to be cycles. -/
theorem Reachable.acyclic_and_register (h : Reachable sheet) :
    (∀ id d, sheet.get? id = some d → d.id = id) ∧
    (∀ id path stop, Ascends sheet.styles (some id) path stop →
      (path.map (·.id)).Nodup ∧ ∀ again, stop = some again → again ∉ path.map (·.id)) ∧
    (∀ id, ∃ path stop, Ascends sheet.styles (some id) path stop ∧
      ∀ missing, stop = some missing → sheet.contains missing = false) ∧
    (∀ d,
      (sheet.register d = .error (.duplicateStyle d.id) ↔ sheet.contains d.id = true) ∧
      (∀ id cycle, sheet.register d = .error (.cyclicInheritance id cycle) ↔
        sheet.contains d.id = false ∧ id = d.id ∧
          ∃ path, Ascends sheet.styles d.basedOn path (some d.id) ∧
            cycle = d.id :: (path.map (·.id) ++ [d.id])) ∧
      (sheet.contains d.id = false → (∀ path, ¬Ascends sheet.styles d.basedOn path (some d.id)) →
        ∃ sheet', sheet.register d = .ok sheet' ∧ sheet'.defaults = sheet.defaults ∧
          ∀ id, sheet'.get? id = if id = d.id then some d else sheet.get? id)) ∧
    (∀ call e, sheet.answer call = .error e → sheet.after call = sheet) ∧
    ∀ id culprit cycle, sheet.declared id ≠ .error (.cyclicInheritance culprit cycle) := by
  obtain ⟨hkeyed, hacyclic⟩ := h.coherent
  refine ⟨hkeyed, fun id path stop hway => hacyclic.nodup hkeyed hway, fun id => ?_,
    fun d => ⟨?_, fun id cycle => ?_, fun hnew hno => ?_⟩, fun call e he => ?_,
    fun id culprit cycle he => ?_⟩
  · exact ⟨_, _, ascends_climb sheet.styles [] (some id), fun missing hstop =>
      contains_eq_false_iff.mpr (hacyclic.topmost_climb (some id) missing hstop)⟩
  · exact register_eq_duplicate_iff
  · exact register_eq_cyclic_iff hacyclic
  · have hc := (cycle?_eq_none_iff hacyclic hnew).mpr hno
    exact ⟨_, register_of_no_cycle hnew hc, rfl, fun id => Dict.get?_insert _ _ _ _⟩
  · exact after_of_answer_eq_error he
  · obtain ⟨_, _, _, _, hmissing⟩ := (chain_eq_error_iff hacyclic).mp (declared_eq_error_iff.mp he)
    cases hmissing

/-- A style may name a parent that comes later; that parent may then not be based on it. -/
theorem Reachable.acyclic_and_register_parent_after_child :
    (empty.after (.one { id := "Quote", basedOn := some "Body" })).Reachable ∧
      (empty.after (.one { id := "Quote", basedOn := some "Body" })).register
          { id := "Body", basedOn := some "Quote" } =
        .error (.cyclicInheritance "Body" ["Body", "Quote", "Body"]) := by
  have h : (empty.after (.one { id := "Quote", basedOn := some "Body" })).Reachable :=
    .after _ (.withDefaults {})
  obtain ⟨_, _, _, hregister, _⟩ := h.acyclic_and_register
  refine ⟨h, ((hregister { id := "Body", basedOn := some "Quote" }).2.1 _ _).mpr
    ⟨by decide +kernel, rfl, [{ id := "Quote", basedOn := some "Body" }], ?_, rfl⟩⟩
  exact .up (by decide +kernel) (.here _)

end Stylesheet

end Folio
