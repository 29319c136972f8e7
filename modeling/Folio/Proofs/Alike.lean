import Folio.Proofs.Outcome

/-!
# Steps that end alike

Two steps end alike, up to a view of their results, when they fail with the same error or give
results that look the same. Steps in a row end alike when each of them does and what comes next
depends on the view alone; so a property of two whole runs is proved step by step.
-/

namespace Folio

variable {ε α β γ ζ : Type}

/-- Two steps fail with the same error, or give results that have the same view. -/
def Alike (view : α → γ) (x y : Except ε α) : Prop := x.map view = y.map view

namespace Alike

variable {view : α → γ} {view' : β → ζ} {x y : Except ε α}

theorem refl (view : α → γ) (x : Except ε α) : Alike view x x := rfl

/-- Two results are alike when they look alike. -/
theorem ok {a b : α} (h : view a = view b) : Alike view (.ok a : Except ε α) (.ok b) :=
  congrArg Except.ok h

/-- What comes next may depend on a result as far as the view shows it. -/
theorem bind {f g : α → Except ε β} (h : Alike view x y)
    (hf : ∀ a b, view a = view b → Alike view' (f a) (g b)) :
    Alike view' (x >>= f) (y >>= g) := by
  unfold Alike at h
  cases x with
  | error e =>
    cases y with
    | error e' =>
      cases h
      rfl
    | ok b => cases h
  | ok a =>
    cases y with
    | error e' => cases h
    | ok b => exact hf a b (Except.ok.inj h)

/-- Different steps after the same one. -/
theorem after (x : Except ε α) {f g : α → Except ε β} (hf : ∀ a, Alike view' (f a) (g a)) :
    Alike view' (x >>= f) (x >>= g) :=
  (refl id x).bind fun a _ (hab : a = _) => hab ▸ hf a

/-- A last step that cannot fail keeps outcomes alike when it keeps the view. -/
theorem map {f g : α → β} (h : Alike view x y)
    (hf : ∀ a b, view a = view b → view' (f a) = view' (g b)) :
    Alike view' (x >>= fun a => pure (f a)) (y >>= fun b => pure (g b)) :=
  h.bind fun a b hab => ok (hf a b hab)

/-- Steps for what may be absent end alike when they do for what is there. -/
theorem option_mapM {f g : α → Except ε β} (hf : ∀ a, Alike view' (f a) (g a)) (o : Option α) :
    Alike (Option.map view') (o.mapM f) (o.mapM g) := by
  cases o with
  | none => exact refl _ _
  | some a =>
    rw [Option.mapM_some, Option.mapM_some]
    exact (hf a).map fun _ _ h => congrArg some h

/-- Steps for every element end alike when they do for each of them. -/
theorem mapM {f g : α → Except ε β} (hf : ∀ a, Alike view' (f a) (g a)) (xs : List α) :
    Alike (List.map view') (xs.mapM f) (xs.mapM g) := by
  induction xs with
  | nil => exact refl _ _
  | cons a xs ih =>
    rw [List.mapM_cons, List.mapM_cons]
    refine (hf a).bind fun b b' hb => ih.map fun bs bs' hbs => ?_
    rw [List.map_cons, List.map_cons, hb, hbs]

end Alike

end Folio
