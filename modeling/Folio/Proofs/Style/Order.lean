import Folio.Proofs.Style.Binding
import Mathlib.Logic.Relation

/-!
# Registration in any order

Styles that are registered together are looked at one by one, each beside those that came before it.
What comes out does not depend on the order: they are taken exactly when their ids are new and
distinct and the graph in which every style, old or new, points to its parent has no cycle. A way up
in a stylesheet is a path of that graph, and the step that would close a cycle is refused.
-/

namespace Folio

/-- Among some styles one has the first id and names the second as its parent. -/
def BasedOn (ds : List StyleDefinition) (child parent : String) : Prop :=
  ∃ d ∈ ds, d.id = child ∧ d.basedOn = some parent

/-- Following parents among some styles never comes back to where it began. -/
def NoCycle (ds : List StyleDefinition) : Prop := ∀ id, ¬Relation.TransGen (BasedOn ds) id id

variable {ds es : List StyleDefinition} {styles : Dict StyleDefinition}

theorem BasedOn.mono (hsub : ∀ d ∈ ds, d ∈ es) {child parent : String}
    (h : BasedOn ds child parent) : BasedOn es child parent := by
  obtain ⟨d, hd, hchild⟩ := h
  exact ⟨d, hsub d hd, hchild⟩

/-- Fewer styles close no more cycles. -/
theorem NoCycle.mono (hsub : ∀ d ∈ ds, d ∈ es) (h : NoCycle es) : NoCycle ds := by
  intro id hcycle
  exact h id (Relation.TransGen.mono (fun _ _ => BasedOn.mono hsub) id id hcycle)

theorem noCycle_congr (hsame : ∀ d, d ∈ ds ↔ d ∈ es) : NoCycle ds ↔ NoCycle es :=
  ⟨NoCycle.mono fun d => (hsame d).mpr, NoCycle.mono fun d => (hsame d).mp⟩

/-- In a stylesheet a style points to its parent. -/
theorem Keyed.basedOn_values_iff (h : Keyed styles) {child parent : String} :
    BasedOn styles.values child parent ↔
      ∃ d, styles.get? child = some d ∧ d.basedOn = some parent := by
  constructor
  · rintro ⟨d, hd, rfl, hparent⟩
    obtain ⟨id, hid⟩ := Dict.mem_values_iff.mp hd
    obtain rfl := h id d hid
    exact ⟨d, hid, hparent⟩
  · rintro ⟨d, hd, hparent⟩
    exact ⟨d, Dict.mem_values_iff.mpr ⟨child, hd⟩, h child d hd, hparent⟩

/-- A path in the graph of a stylesheet is a way up that passes at least one style. -/
theorem Keyed.transGen_basedOn_iff (h : Keyed styles) {id stop : String} :
    Relation.TransGen (BasedOn styles.values) id stop ↔
      ∃ d path, Ascends styles (some id) (d :: path) (some stop) := by
  constructor
  · intro hpath
    induction hpath using Relation.TransGen.head_induction_on with
    | single hedge =>
      obtain ⟨d, hd, hparent⟩ := h.basedOn_values_iff.mp hedge
      exact ⟨d, [], .up hd (hparent ▸ .here _)⟩
    | head hedge _ ih =>
      obtain ⟨d, hd, hparent⟩ := h.basedOn_values_iff.mp hedge
      obtain ⟨e, path, hup⟩ := ih
      exact ⟨d, e :: path, .up hd (hparent ▸ hup)⟩
  · rintro ⟨d, path, hup⟩
    induction path generalizing id d with
    | nil =>
      cases hup with
      | up hd hup =>
        generalize hparent : d.basedOn = parent at hup
        cases hup
        exact .single (h.basedOn_values_iff.mpr ⟨d, hd, hparent⟩)
    | cons e path ih =>
      cases hup with
      | up hd hup =>
        generalize hparent : d.basedOn = parent at hup
        cases hup with
        | up he hrest =>
          exact .head (h.basedOn_values_iff.mpr ⟨d, hd, hparent⟩) (ih e (.up he hrest))

/-- In a stylesheet no way up comes back to its start exactly when its graph has no cycle. -/
theorem Keyed.acyclic_iff_noCycle (h : Keyed styles) : Acyclic styles ↔ NoCycle styles.values := by
  constructor
  · intro hacyclic id hcycle
    obtain ⟨d, path, hup⟩ := h.transGen_basedOn_iff.mp hcycle
    exact hacyclic.ne_start hup rfl
  · intro hno id path hup
    cases path with
    | nil => rfl
    | cons d path => exact absurd (h.transGen_basedOn_iff.mpr ⟨d, path, hup⟩) (hno id)

namespace Stylesheet

variable {sheet sheet' next : Stylesheet} {d : StyleDefinition}

/-- A style that is taken is looked up under its id, and nothing else changes. -/
theorem get?_of_register (hr : sheet.register d = .ok next) {id : String} {e : StyleDefinition} :
    next.get? id = some e ↔ sheet.get? id = some e ∨ e = d ∧ d.id = id := by
  obtain ⟨hnew, _, rfl⟩ := register_eq_ok hr
  have hnone : sheet.get? d.id = none := contains_eq_false_iff.mp hnew
  have hget : Stylesheet.get? { sheet with styles := sheet.styles.insert d.id d } id =
      if id = d.id then some d else sheet.get? id := Dict.get?_insert _ _ _ _
  rw [hget]
  by_cases hid : id = d.id
  · subst hid
    simp [hnone, eq_comm]
  · simp [hid, Ne.symm hid]

/-- After a style was taken those ids are new that were so before, but for the one of the style. -/
theorem contains_of_register (hr : sheet.register d = .ok next) {id : String} :
    next.contains id = false ↔ id ≠ d.id ∧ sheet.contains id = false := by
  simp only [contains_eq_false_iff, Option.eq_none_iff_forall_ne_some]
  constructor
  · intro hnone
    refine ⟨fun hid => hnone d ((get?_of_register hr).mpr (.inr ⟨rfl, hid.symm⟩)), fun e he => ?_⟩
    exact hnone e ((get?_of_register hr).mpr (.inl he))
  · rintro ⟨hne, hnone⟩ e he
    rcases (get?_of_register hr).mp he with he | ⟨_, hid⟩
    · exact hnone e he
    · exact hne hid.symm

namespace Coherent

/-- The styles of a coherent stylesheet ascend by their ids. -/
theorem pairwise_values (h : Coherent sheet) :
    sheet.styles.values.Pairwise fun a b => a.id < b.id := by
  rw [Dict.values, List.pairwise_map]
  refine sheet.styles.ascending.imp_of_mem fun {a b} ha hb hlt => ?_
  rwa [h.keyed _ _ (Dict.get?_eq_some_iff.mpr ha), h.keyed _ _ (Dict.get?_eq_some_iff.mpr hb)]

/-- The styles of a coherent stylesheet are listed once each. -/
theorem mem_values_iff (h : Coherent sheet) :
    d ∈ sheet.styles.values ↔ sheet.get? d.id = some d := by
  rw [Dict.mem_values_iff]
  constructor
  · rintro ⟨id, hid⟩
    rwa [← h.keyed id d hid] at hid
  · intro hd
    exact ⟨d.id, hd⟩

/-- A style is taken exactly when its id is new and the graph stays without a cycle. -/
theorem register_eq_ok_iff (h : Coherent sheet) :
    sheet.register d = .ok sheet' ↔
      sheet.contains d.id = false ∧ NoCycle (d :: sheet.styles.values) ∧
        sheet' = { sheet with styles := sheet.styles.insert d.id d } := by
  have hvalues (hnew : sheet.contains d.id = false) :
      NoCycle (d :: sheet.styles.values) ↔ Acyclic (sheet.styles.insert d.id d) := by
    rw [(h.keyed.insert d).acyclic_iff_noCycle]
    refine noCycle_congr fun e => ?_
    rw [Dict.mem_values_insert (contains_eq_false_iff.mp hnew), List.mem_cons]
  constructor
  · intro hr
    obtain ⟨hnew, _, rfl⟩ := register_eq_ok hr
    exact ⟨hnew, (hvalues hnew).mpr (h.register hr).acyclic, rfl⟩
  · rintro ⟨hnew, hno, rfl⟩
    refine register_of_no_cycle hnew ((cycle?_eq_none_iff h.acyclic hnew).mpr fun path hup => ?_)
    -- with the new style below it, the way back to its id would be a cycle
    have hway := hup.insert (contains_eq_false_iff.mp hnew)
    have hd : (sheet.styles.insert d.id d).get? d.id = some d :=
      (Dict.get?_insert _ _ _ _).trans (if_pos rfl)
    exact ((hvalues hnew).mp hno).ne_start (.up hd hway) rfl

/-- A further style that is taken adds itself to the graph. -/
theorem noCycle_append_cons_iff (hnew : sheet.contains d.id = false) :
    NoCycle ((sheet.styles.insert d.id d).values ++ ds) ↔
      NoCycle (sheet.styles.values ++ d :: ds) := by
  refine noCycle_congr fun e => ?_
  simp only [List.mem_append, List.mem_cons,
    Dict.mem_values_insert (contains_eq_false_iff.mp hnew)]
  tauto

/-- Styles are taken exactly when their ids are distinct and new and the graph stays without a
cycle. -/
theorem exists_registerAll_eq_ok_iff (h : Coherent sheet) :
    (∃ sheet', sheet.registerAll ds = .ok sheet') ↔
      (ds.map (·.id)).Nodup ∧ (∀ d ∈ ds, sheet.contains d.id = false) ∧
        NoCycle (sheet.styles.values ++ ds) := by
  induction ds generalizing sheet with
  | nil =>
    have hno := h.keyed.acyclic_iff_noCycle.mp h.acyclic
    simpa [registerAll_nil] using hno
  | cons d ds ih =>
    rw [List.map_cons, List.nodup_cons, List.forall_mem_cons]
    constructor
    · rintro ⟨sheet', hr⟩
      rw [registerAll_cons] at hr
      obtain ⟨next, hd, hrest⟩ := bind_eq_ok_iff.mp hr
      obtain ⟨hnodup, hfresh, hno⟩ := (ih (h.register hd)).mp ⟨sheet', hrest⟩
      have hother e (he : e ∈ ds) := (contains_of_register hd).mp (hfresh e he)
      obtain ⟨hnew, _, rfl⟩ := h.register_eq_ok_iff.mp hd
      have hid : d.id ∉ ds.map (·.id) := by
        intro hmem
        obtain ⟨e, he, heq⟩ := List.mem_map.mp hmem
        exact (hother e he).1 heq
      exact ⟨⟨hid, hnodup⟩, ⟨hnew, fun e he => (hother e he).2⟩,
        (noCycle_append_cons_iff hnew).mp hno⟩
    · rintro ⟨⟨hid, hnodup⟩, ⟨hnew, hfresh⟩, hno⟩
      have hstep : NoCycle (d :: sheet.styles.values) := hno.mono fun e he => by
        rcases List.mem_cons.mp he with rfl | he
        · exact List.mem_append_right _ List.mem_cons_self
        · exact List.mem_append_left _ he
      have hd := h.register_eq_ok_iff.mpr ⟨hnew, hstep, rfl⟩
      have hfresh e (he : e ∈ ds) := (contains_of_register hd).mpr
        ⟨fun heq => hid (heq ▸ List.mem_map_of_mem he), hfresh e he⟩
      have hno := (noCycle_append_cons_iff hnew).mpr hno
      obtain ⟨sheet', hrest⟩ := (ih (h.register hd)).mpr ⟨hnodup, hfresh, hno⟩
      rw [registerAll_cons]
      exact ⟨sheet', bind_eq_ok_iff.mpr ⟨_, hd, hrest⟩⟩

end Coherent

/-- Registering styles keeps the defaults. -/
theorem defaults_of_registerAll (hr : sheet.registerAll ds = .ok sheet') :
    sheet'.defaults = sheet.defaults := by
  induction ds generalizing sheet with
  | nil =>
    cases hr
    rfl
  | cons d ds ih =>
    rw [registerAll_cons] at hr
    obtain ⟨next, hd, hrest⟩ := bind_eq_ok_iff.mp hr
    have hdefaults := ih hrest
    obtain ⟨_, _, rfl⟩ := register_eq_ok hd
    exact hdefaults

/-- Styles that are taken are looked up under their ids, and nothing else changes. -/
theorem get?_of_registerAll (hr : sheet.registerAll ds = .ok sheet') {id : String}
    {e : StyleDefinition} :
    sheet'.get? id = some e ↔ sheet.get? id = some e ∨ e ∈ ds ∧ e.id = id := by
  induction ds generalizing sheet with
  | nil =>
    cases hr
    simp
  | cons d ds ih =>
    rw [registerAll_cons] at hr
    obtain ⟨next, hd, hrest⟩ := bind_eq_ok_iff.mp hr
    rw [ih hrest, get?_of_register hd, List.mem_cons, or_and_right, or_assoc]
    refine or_congr_right (or_congr_left (and_congr_right ?_))
    rintro rfl
    rfl

/-- Stylesheets with the same defaults and the same look-ups are equal. -/
theorem eq_of_get? (hdefaults : sheet.defaults = sheet'.defaults)
    (hget : ∀ id e, sheet.get? id = some e ↔ sheet'.get? id = some e) : sheet = sheet' := by
  obtain ⟨styles, defaults⟩ := sheet
  obtain ⟨styles', defaults'⟩ := sheet'
  obtain rfl : styles = styles' := Dict.ext_get? fun id => Option.ext (hget id)
  obtain rfl : defaults = defaults' := hdefaults
  rfl

/-- Styles that are taken are left in the stylesheet. -/
theorem after_all_of_ok (hr : sheet.registerAll ds = .ok sheet') :
    sheet.after (.all ds) = sheet' :=
  Call.left_of_result_eq_ok hr

/-- Styles that are refused leave the stylesheet as it was. -/
theorem after_all_of_error {err : BuildError} (hr : sheet.registerAll ds = .error err) :
    sheet.after (.all ds) = sheet :=
  (atomic_addAll ds).left_of_result_eq_error hr

namespace Coherent

/-- Whether styles are taken does not depend on their order. -/
theorem exists_registerAll_perm (h : Coherent sheet) (hperm : ds.Perm es) :
    (∃ sheet', sheet.registerAll ds = .ok sheet') ↔
      ∃ sheet', sheet.registerAll es = .ok sheet' := by
  rw [h.exists_registerAll_eq_ok_iff, h.exists_registerAll_eq_ok_iff, (hperm.map _).nodup_iff,
    noCycle_congr fun d => (hperm.append_left sheet.styles.values).mem_iff]
  simp only [hperm.mem_iff]

/-- What comes out does not depend on the order either. -/
theorem after_all_perm (h : Coherent sheet) (hperm : ds.Perm es) :
    sheet.after (.all ds) = sheet.after (.all es) := by
  have halike := h.exists_registerAll_perm hperm
  cases hds : sheet.registerAll ds with
  | ok left =>
    obtain ⟨right, hes⟩ := halike.mp ⟨left, hds⟩
    rw [after_all_of_ok hds, after_all_of_ok hes]
    refine eq_of_get? ?_ fun id e => ?_
    · rw [defaults_of_registerAll hds, defaults_of_registerAll hes]
    · rw [get?_of_registerAll hds, get?_of_registerAll hes, hperm.mem_iff]
  | error err =>
    cases hes : sheet.registerAll es with
    | ok right =>
      obtain ⟨left, hleft⟩ := halike.mpr ⟨right, hes⟩
      rw [hds] at hleft
      cases hleft
    | error err' => rw [after_all_of_error hds, after_all_of_error hes]

end Coherent

/-- In every stylesheet that calls can make, styles are registered together exactly when their ids
are distinct and new and the graph of the parents of old and new styles has no cycle. Then the
stylesheet has just these styles more, and otherwise it is as it was. So the order of the styles
matters neither for this nor for what the stylesheet is bound to, whose styles ascend by their
ids. -/
theorem Reachable.registerAll_in_any_order (h : sheet.Reachable) (ds : List StyleDefinition) :
    ((∃ sheet', sheet.registerAll ds = .ok sheet') ↔
      (ds.map (·.id)).Nodup ∧ (∀ d ∈ ds, sheet.contains d.id = false) ∧
        NoCycle (sheet.styles.values ++ ds)) ∧
    (∀ sheet', sheet.registerAll ds = .ok sheet' →
      sheet.after (.all ds) = sheet' ∧ sheet'.defaults = sheet.defaults ∧
        ∀ id d, sheet'.get? id = some d ↔ sheet.get? id = some d ∨ d ∈ ds ∧ d.id = id) ∧
    (∀ e, sheet.registerAll ds = .error e → sheet.after (.all ds) = sheet) ∧
    (∀ theme styling, (sheet.after (.all ds)).bind theme = .ok styling →
      (styling.definitions.Pairwise fun a b => a.id < b.id) ∧
        ∀ d, d ∈ styling.definitions ↔ (sheet.after (.all ds)).get? d.id = some d) ∧
    ∀ es, ds.Perm es →
      ((∃ sheet', sheet.registerAll ds = .ok sheet') ↔
        ∃ sheet', sheet.registerAll es = .ok sheet') ∧
      sheet.after (.all ds) = sheet.after (.all es) ∧
      ∀ theme styling, (sheet.after (.all ds)).bind theme = .ok styling →
        ∃ styling', (sheet.after (.all es)).bind theme = .ok styling' ∧
          styling.definitions = styling'.definitions ∧
          ∀ id overrides, styling.resolve id overrides = styling'.resolve id overrides := by
  have hcoherent := h.coherent
  refine ⟨hcoherent.exists_registerAll_eq_ok_iff, fun sheet' hr => ?_,
    fun e hr => after_all_of_error hr, fun theme styling hb => ?_, fun es hperm => ?_⟩
  · exact ⟨after_all_of_ok hr, defaults_of_registerAll hr, fun id d => get?_of_registerAll hr⟩
  · have hafter := hcoherent.after (.all ds)
    obtain ⟨rfl, _⟩ := (bind_eq_ok_iff_fits hafter.acyclic).mp hb
    exact ⟨hafter.pairwise_values, fun d => hafter.mem_values_iff⟩
  · have hsame := hcoherent.after_all_perm hperm
    refine ⟨hcoherent.exists_registerAll_perm hperm, hsame, fun theme styling hb => ?_⟩
    rw [hsame] at hb
    exact ⟨styling, hb, rfl, fun _ _ => rfl⟩

/-- A stylesheet with a style whose parent is missing. -/
def orphaned : Stylesheet := empty.after (.one { id := "Quote", basedOn := some "Body" })

/-- The missing parent, with a parent that is based on the style which misses it. -/
def circular : List StyleDefinition :=
  [{ id := "Body", basedOn := some "Base" }, { id := "Base", basedOn := some "Quote" }]

/-- The missing parent may come with a parent of its own, in either order, but not with one that is
based on the style which misses it. -/
theorem Reachable.registerAll_in_any_order_orphaned :
    orphaned.Reachable ∧
      orphaned.after (.all [{ id := "Body", basedOn := some "Base" }, { id := "Base" }]) =
        orphaned.after (.all [{ id := "Base" }, { id := "Body", basedOn := some "Base" }]) ∧
      ¬∃ sheet, orphaned.registerAll circular = .ok sheet := by
  have h : orphaned.Reachable := .after _ (.withDefaults {})
  refine ⟨h, ?_, fun hok => ?_⟩
  · obtain ⟨_, _, _, _, hperm⟩ := h.registerAll_in_any_order
      [{ id := "Body", basedOn := some "Base" }, { id := "Base" }]
    exact (hperm _ (List.Perm.swap _ _ _)).2.1
  · obtain ⟨_, _, hno⟩ := (h.registerAll_in_any_order circular).1.mp hok
    have hquote : BasedOn (orphaned.styles.values ++ circular) "Quote" "Body" :=
      ⟨{ id := "Quote", basedOn := some "Body" }, by decide +kernel, rfl, rfl⟩
    have hbody : BasedOn (orphaned.styles.values ++ circular) "Body" "Base" :=
      ⟨{ id := "Body", basedOn := some "Base" }, by decide +kernel, rfl, rfl⟩
    have hbase : BasedOn (orphaned.styles.values ++ circular) "Base" "Quote" :=
      ⟨{ id := "Base", basedOn := some "Quote" }, by decide +kernel, rfl, rfl⟩
    exact hno "Quote" (.head hquote (.head hbody (.single hbase)))

end Stylesheet

end Folio
