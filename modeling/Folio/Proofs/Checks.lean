import Folio.Proofs.Style.Binding

/-!
# Steps that follow checks

A step follows some checks when it succeeds exactly where all of them succeed and fails as the first
that fails. Steps in a row follow their checks in a row, so what a long computation can fail for is
read off its parts.
-/

namespace Folio

variable {δ α β : Type} {check : δ → Except BuildError Unit} {ds es : List δ}

/-- The first of some checks is made before the others. -/
theorem checkAll_cons {d : δ} :
    checkAll check (d :: ds) = check d >>= fun _ => checkAll check ds := rfl

/-- Checks in a row are those of a front part and then those of the rest. -/
theorem checkAll_append :
    checkAll check (ds ++ es) = checkAll check ds >>= fun _ => checkAll check es := by
  induction ds with
  | nil => rfl
  | cons d ds ih =>
    rw [List.cons_append, checkAll_cons, checkAll_cons, ih, bind_assoc]

/-- Checking in order fails at the first check that fails. -/
theorem checkAll_eq_error_iff {e : BuildError} :
    checkAll check ds = .error e ↔
      ∃ before d after, ds = before ++ d :: after ∧ (∀ x ∈ before, check x = .ok ()) ∧
        check d = .error e := by
  induction ds with
  | nil => simp [checkAll]
  | cons d ds ih =>
    rw [checkAll_cons, bind_eq_error_iff, ih]
    constructor
    · rintro (hd | ⟨_, hd, before, d', after, rfl, hbefore, hd'⟩)
      · exact ⟨[], d, ds, rfl, List.forall_mem_nil _, hd⟩
      · exact ⟨d :: before, d', after, rfl, List.forall_mem_cons.mpr ⟨hd, hbefore⟩, hd'⟩
    · rintro ⟨before, d', after, hds, hbefore, hd'⟩
      cases before with
      | nil =>
        cases hds
        exact .inl hd'
      | cons x before =>
        cases hds
        obtain ⟨hx, hbefore⟩ := List.forall_mem_cons.mp hbefore
        exact .inr ⟨(), hx, before, d', after, rfl, hbefore, hd'⟩

/-- A step succeeds exactly when all checks do, and fails as the first check that fails. -/
def Follows (check : δ → Except BuildError Unit) (ds : List δ) (x : Except BuildError α) : Prop :=
  x.map (fun _ => ()) = checkAll check ds

namespace Follows

variable {x : Except BuildError α}

/-- A step that succeeds follows no checks. -/
theorem ok (a : α) : Follows check [] (.ok a : Except BuildError α) := rfl

/-- A step that fails just as one check does follows that check. -/
theorem of_check {d : δ} (h : x.map (fun _ => ()) = check d) : Follows check [d] x := by
  unfold Follows
  rw [h, checkAll_cons]
  cases check d <;> rfl

/-- A step that succeeds anyway follows no check. -/
theorem of_eq_ok {a : α} (h : x = .ok a) : Follows check [] x := h ▸ ok a

/-- What comes after a step follows its checks where the step has succeeded. -/
theorem bind {f : α → Except BuildError β} (hx : Follows check ds x)
    (hf : ∀ a, x = .ok a → Follows check es (f a)) : Follows check (ds ++ es) (x >>= f) := by
  unfold Follows at hx ⊢
  rw [checkAll_append, ← hx]
  cases x with
  | error e => rfl
  | ok a => exact hf a rfl

/-- Working on the result of a step adds no check. -/
theorem map {f : α → β} (hx : Follows check ds x) :
    Follows check ds (x >>= fun a => pure (f a)) := by
  rw [← List.append_nil ds]
  exact hx.bind fun a _ => ok (f a)

/-- A step for what may be absent follows the checks of what is there. -/
theorem option_mapM {f : α → Except BuildError β} {checks : α → List δ}
    (hf : ∀ a, Follows check (checks a) (f a)) (o : Option α) :
    Follows check (o.toList.flatMap checks) (o.mapM f) := by
  cases o with
  | none => exact ok none
  | some a =>
    rw [Option.toList_some, List.flatMap_singleton, Option.mapM_some]
    have hstep := (hf a).map (f := some)
    cases hfa : f a with
    | error e => rwa [hfa] at hstep
    | ok b => rwa [hfa] at hstep

/-- A step for every element follows the checks of the elements in their order. -/
theorem mapM {f : α → Except BuildError β} {checks : α → List δ} {xs : List α}
    (hf : ∀ a ∈ xs, Follows check (checks a) (f a)) :
    Follows check (xs.flatMap checks) (xs.mapM f) := by
  induction xs with
  | nil => exact ok []
  | cons x xs ih =>
    obtain ⟨hx, hxs⟩ := List.forall_mem_cons.mp hf
    rw [List.flatMap_cons, List.mapM_cons]
    exact hx.bind fun _ _ => (ih hxs).map

/-- A step succeeds exactly when all the checks do that it follows. -/
theorem exists_eq_ok_iff (h : Follows check ds x) :
    (∃ a, x = .ok a) ↔ ∀ d ∈ ds, check d = .ok () := by
  unfold Follows at h
  have hall : checkAll check ds = .ok () ↔ ∀ d ∈ ds, check d = .ok () := by
    rw [checkAll_eq_ok_iff]
    exact forall₂_congr fun d _ => ⟨fun ⟨_, hd⟩ => hd, fun hd => ⟨(), hd⟩⟩
  rw [← hall, ← h]
  cases x with
  | error e => exact ⟨nofun, nofun⟩
  | ok a => exact ⟨fun _ => rfl, fun _ => ⟨a, rfl⟩⟩

/-- A step fails with the error of the first check that fails. -/
theorem eq_error_iff (h : Follows check ds x) {e : BuildError} :
    x = .error e ↔ ∃ before d after, ds = before ++ d :: after ∧
      (∀ d' ∈ before, check d' = .ok ()) ∧ check d = .error e := by
  unfold Follows at h
  rw [← checkAll_eq_error_iff, ← h]
  cases x with
  | error e' => exact ⟨fun hx => congrArg _ hx, fun hx => by cases hx; rfl⟩
  | ok a => exact ⟨nofun, nofun⟩

end Follows

end Folio
