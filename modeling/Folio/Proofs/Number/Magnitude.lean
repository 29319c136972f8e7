import Folio.Proofs.Number.Rounding
import Folio.Frame

/-!
# Magnitudes of binary32 numbers

Every finite number has a magnitude, and a bound on the magnitudes of what is added, subtracted or
multiplied bounds the magnitude of the result. When the bounds are powers of two, so is the bound of
the result, and a sum does not grow past a power of two by what is less than half a step there.
-/

namespace Folio.Number

open Float.Model Float.Model.UnpackedFloat

/-- The magnitude of a number; infinities and what is not a number have none. -/
def magnitude? (x : Float32) : Option ℚ :=
  match x.toModel.unpack with
  | .zero _ => some 0
  | .finite _ m e _ => some (m * 2 ^ e)
  | _ => none

/-- Whether a number has a magnitude, and one of at most `b`. -/
def AtMost (b : ℚ) (x : Float32) : Prop := ∃ q, magnitude? x = some q ∧ q ≤ b

instance (b : ℚ) : DecidablePred (AtMost b) := fun x =>
  match hx : magnitude? x with
  | none => isFalse fun ⟨_, hq, _⟩ => nomatch hx.symm.trans hq
  | some q =>
    decidable_of_iff (q ≤ b)
      ⟨fun hb => ⟨q, hx, hb⟩, fun ⟨_, hq, hb⟩ => Option.some.inj (hx.symm.trans hq) ▸ hb⟩

/-- A bound may be weakened. -/
theorem Bounded.mono {b c : ℚ} {f : UnpackedFloat} (h : Bounded b f) (hbc : b ≤ c) :
    Bounded c f := by
  cases h with
  | zero s => exact .zero s
  | finite s m e hm hlt hmin hnormal hb => exact .finite s m e hm hlt hmin hnormal (hb.trans hbc)

theorem AtMost.bounded {b : ℚ} {x : Float32} (h : AtMost b x) : Bounded b x.toModel.unpack := by
  obtain ⟨q, hq, hb⟩ := h
  unfold magnitude? at hq
  cases hx : x.toModel.unpack with
  | zero s => exact .zero s
  | finite s m e hm =>
    rw [hx] at hq
    cases hq
    exact hx ▸ bounded_unpack hx hb
  | infinity s =>
    rw [hx] at hq
    cases hq
  | notANumber =>
    rw [hx] at hq
    cases hq

/-- A result that is not too large keeps its magnitude when it is put together. -/
theorem atMost_pack {b : ℚ} {f : UnpackedFloat} (h : Bounded b f) (hpos : 0 ≤ b)
    (hb : b ≤ 2 ^ (127 : Int)) : AtMost b ⟨Float32.Model.pack f⟩ := by
  unfold AtMost magnitude?
  rw [h.unpack_pack hb]
  cases h with
  | zero s => exact ⟨0, rfl, hpos⟩
  | finite s m e hm hlt hmin hnormal hle => exact ⟨_, rfl, hle⟩

/-- What has a bound is finite. -/
theorem Bounded.isFinite {b : ℚ} {f : UnpackedFloat} (h : Bounded b f) : f.isFinite = true := by
  cases h <;> rfl

theorem AtMost.isFinite {b : ℚ} {x : Float32} (h : AtMost b x) : x.isFinite = true :=
  h.bounded.isFinite

theorem AtMost.mono {b c : ℚ} {x : Float32} (h : AtMost b x) (hbc : b ≤ c) : AtMost c x := by
  obtain ⟨q, hq, hb⟩ := h
  exact ⟨q, hq, hb.trans hbc⟩

section Results

variable {a b : ℚ} {v : Int} {f g : UnpackedFloat}

/-- A sum or difference of two numbers, on the finer one of their grids. -/
theorem bounded_normalize_of_natAbs_le {m₁ m₂ : Nat} {e₁ e₂ m : Int} (hv : -126 ≤ v)
    (hm : m.natAbs ≤ m₁ <<< (e₁ - min e₁ e₂).toNat + m₂ <<< (e₂ - min e₁ e₂).toNat)
    (h₁ : (m₁ : ℚ) * 2 ^ e₁ ≤ a) (h₂ : (m₂ : ℚ) * 2 ^ e₂ ≤ b)
    (hab : a + b ≤ 2 ^ v + 2 ^ (v - 24)) :
    Bounded (2 ^ v) (UnpackedFloat.normalize Format.binary32 m (min e₁ e₂) .positive) := by
  refine bounded_normalize .positive hv (le_trans ?_ hab)
  have hfine (n : Nat) {e : Int} (he : min e₁ e₂ ≤ e) :
      ((n * 2 ^ (e - min e₁ e₂).toNat : ℕ) : ℚ) * 2 ^ min e₁ e₂ = n * 2 ^ e := by
    rw [← shifted_mul_zpow n (e - min e₁ e₂).toNat e]
    congr 2
    omega
  rw [Nat.shiftLeft_eq, Nat.shiftLeft_eq] at hm
  calc (m.natAbs : ℚ) * 2 ^ min e₁ e₂
    _ ≤ (m₁ * 2 ^ (e₁ - min e₁ e₂).toNat + m₂ * 2 ^ (e₂ - min e₁ e₂).toNat : ℕ) *
          2 ^ min e₁ e₂ := by gcongr
    _ = m₁ * 2 ^ e₁ + m₂ * 2 ^ e₂ := by
      rw [Nat.cast_add, add_mul, hfine m₁ (min_le_left _ _), hfine m₂ (min_le_right _ _)]
    _ ≤ a + b := add_le_add h₁ h₂

theorem natAbs_apply (s : Sign) (m : Nat) : (s.apply (m : Int)).natAbs = m := by
  cases s with
  | positive => exact Int.natAbs_natCast m
  | negative => exact (Int.natAbs_neg m).trans (Int.natAbs_natCast m)

/-- A sum is bounded by a power of two that leaves room for rounding. -/
theorem bounded_add (hf : Bounded a f) (hg : Bounded b g) (hv : -126 ≤ v) (ha : a ≤ 2 ^ v)
    (hb : b ≤ 2 ^ v) (hab : a + b ≤ 2 ^ v + 2 ^ (v - 24)) :
    Bounded (2 ^ v) (UnpackedFloat.add Format.binary32 f g) := by
  cases hf with
  | zero s =>
    cases hg with
    | zero s' => cases s <;> cases s' <;> exact .zero _
    | finite s' m e hm hlt hmin hnormal hle =>
      exact .finite s' m e hm hlt hmin hnormal (hle.trans hb)
  | finite s m e hm hlt hmin hnormal hle =>
    cases hg with
    | zero s' => exact .finite s m e hm hlt hmin hnormal (hle.trans ha)
    | finite s' m' e' hm' hlt' hmin' hnormal' hle' =>
      refine bounded_normalize_of_natAbs_le hv ?_ hle hle' hab
      refine (Int.natAbs_add_le _ _).trans ?_
      rw [natAbs_apply, natAbs_apply]

/-- Subtracting is adding with the other sign. -/
theorem sub_eq_add_neg (f g : UnpackedFloat) :
    UnpackedFloat.sub Format.binary32 f g = UnpackedFloat.add Format.binary32 f g.neg := by
  cases f with
  | finite s m e hm =>
    cases g with
    | finite s' m' e' hm' =>
      have hneg (n : Nat) : (-s').apply (n : Int) = -s'.apply n := by
        cases s' with
        | positive => rfl
        | negative => exact (Int.neg_neg _).symm
      simp only [UnpackedFloat.sub, UnpackedFloat.add, UnpackedFloat.neg, hneg, Int.sub_eq_add_neg]
    | _ => rfl
  | _ => cases g <;> rfl

theorem Bounded.neg (h : Bounded b g) : Bounded b g.neg := by
  cases h with
  | zero s => exact .zero (-s)
  | finite s m e hm hlt hmin hnormal hle => exact .finite (-s) m e hm hlt hmin hnormal hle

/-- A product of numbers with 24 bits has more, and a product of numbers on the lowest grid lies
far below it. -/
theorem le_targetExponent_mul {m₁ m₂ : Nat} {e₁ e₂ : Int} (hm₁ : 0 < m₁) (hm₂ : 0 < m₂)
    (h₁ : 2 ^ 23 ≤ m₁ ∨ e₁ = -149) (h₂ : 2 ^ 23 ≤ m₂ ∨ e₂ = -149) :
    e₁ + e₂ ≤ Format.binary32.targetExponent (totalExponent (m₁ * m₂) (e₁ + e₂)) := by
  rw [targetExponent_eq]
  have hlog (h : 2 ^ 23 ≤ m₁ * m₂) : 23 ≤ (m₁ * m₂).log2 :=
    (Nat.le_log2 (Nat.mul_pos hm₁ hm₂).ne').mpr h
  rcases h₁ with h₁ | rfl
  · have := hlog (h₁.trans (Nat.le_mul_of_pos_right m₁ hm₂))
    omega
  · rcases h₂ with h₂ | rfl
    · have := hlog (h₂.trans (Nat.le_mul_of_pos_left m₂ hm₁))
      omega
    · omega

/-- A product is bounded by a power of two that it does not exceed before rounding. -/
theorem bounded_mul (hf : Bounded a f) (hg : Bounded b g) (hv : -126 ≤ v) (ha : 0 ≤ a)
    (hab : a * b ≤ 2 ^ v) : Bounded (2 ^ v) (UnpackedFloat.mul Format.binary32 f g) := by
  cases hf with
  | zero s => cases hg <;> exact .zero _
  | finite s m e hm hlt hmin hnormal hle =>
    cases hg with
    | zero s' => exact .zero _
    | finite s' m' e' hm' hlt' hmin' hnormal' hle' =>
      refine bounded_roundWithAccuracy _ (le_targetExponent_mul hm hm' hnormal hnormal') hv ?_
      calc ((m * m' : ℕ) : ℚ) * 2 ^ (e + e')
        _ = m * 2 ^ e * (m' * 2 ^ e') := by
          rw [Nat.cast_mul, two_zpow_add]
          ring
        _ ≤ a * b := mul_le_mul hle hle' (by positivity) ha
        _ ≤ 2 ^ v + 2 ^ (v - 24) := hab.trans (le_add_of_nonneg_right (by positivity))

end Results

section Powers

variable {u v w : Int} {x y : Float32}

theorem two_zpow_le (h : u ≤ v) : (2 : ℚ) ^ u ≤ 2 ^ v := zpow_le_zpow_right₀ one_le_two h

/-- A sum stays within a power of two if its terms lie below, or if one is within that power and the
other at most half a step there. -/
theorem two_zpow_add_le (h : u < v ∧ w < v ∨ u ≤ v ∧ w + 24 ≤ v) :
    (2 : ℚ) ^ u + 2 ^ w ≤ 2 ^ v + 2 ^ (v - 24) := by
  rcases h with ⟨hu, hw⟩ | ⟨hu, hw⟩
  · have hhalf : (2 : ℚ) ^ (v - 1) + 2 ^ (v - 1) = 2 ^ v := by
      rw [← two_mul, show v = 1 + (v - 1) by omega, two_zpow_add, zpow_one]
      congr 3
      omega
    calc (2 : ℚ) ^ u + 2 ^ w
      _ ≤ 2 ^ (v - 1) + 2 ^ (v - 1) :=
        add_le_add (two_zpow_le (by omega)) (two_zpow_le (by omega))
      _ = 2 ^ v := hhalf
      _ ≤ 2 ^ v + 2 ^ (v - 24) := le_add_of_nonneg_right (by positivity)
  · exact add_le_add (two_zpow_le hu) (two_zpow_le (by omega))

/-- A sum of lengths stays below a power of two that is greater than both bounds, or much greater
than one. -/
theorem AtMost.add (hx : AtMost (2 ^ u) x) (hy : AtMost (2 ^ w) y)
    (h : u < v ∧ w < v ∨ u ≤ v ∧ w + 24 ≤ v) (hv : -126 ≤ v) (hmax : v ≤ 127) :
    AtMost (2 ^ v) (x + y) := by
  have hsum := bounded_add hx.bounded hy.bounded hv (two_zpow_le (by omega))
    (two_zpow_le (by omega)) (two_zpow_add_le h)
  exact atMost_pack hsum (by positivity) (two_zpow_le hmax)

/-- A difference has the bounds of a sum. -/
theorem AtMost.sub (hx : AtMost (2 ^ u) x) (hy : AtMost (2 ^ w) y)
    (h : u < v ∧ w < v ∨ u ≤ v ∧ w + 24 ≤ v) (hv : -126 ≤ v) (hmax : v ≤ 127) :
    AtMost (2 ^ v) (x - y) := by
  have hdifference := bounded_add hx.bounded hy.bounded.neg hv (two_zpow_le (by omega))
    (two_zpow_le (by omega)) (two_zpow_add_le h)
  rw [← sub_eq_add_neg] at hdifference
  exact atMost_pack hdifference (by positivity) (two_zpow_le hmax)

/-- A product of lengths has the product of their bounds. -/
theorem AtMost.mul (hx : AtMost (2 ^ u) x) (hy : AtMost (2 ^ w) y) (h : u + w ≤ v)
    (hv : -126 ≤ v) (hmax : v ≤ 127) : AtMost (2 ^ v) (x * y) := by
  have hproduct : (2 : ℚ) ^ u * 2 ^ w ≤ 2 ^ v := by
    rw [← two_zpow_add]
    exact two_zpow_le h
  exact atMost_pack (bounded_mul hx.bounded hy.bounded hv (by positivity) hproduct)
    (by positivity) (two_zpow_le hmax)

theorem atMost_zero : AtMost (2 ^ v) 0 := ⟨0, rfl, by positivity⟩

/-- A count is rounded to a number within the same power of two. -/
theorem atMost_ofCount {n k : Nat} (hn : n ≤ 2 ^ k) (hk : k ≤ 127) :
    AtMost (2 ^ (k : Int)) (Length.ofCount n : Float32) := by
  have hword : (UInt64.ofNat n).toNat ≤ 2 ^ k := (Nat.mod_le n _).trans hn
  have hcount : ((((UInt64.ofNat n).toNat : Int).natAbs : ℕ) : ℚ) * 2 ^ (0 : Int) ≤
      2 ^ (k : Int) + 2 ^ ((k : Int) - 24) := by
    rw [Int.natAbs_natCast, zpow_zero, mul_one, zpow_natCast]
    refine le_trans ?_ (le_add_of_nonneg_right (by positivity))
    exact_mod_cast hword
  exact atMost_pack (bounded_normalize .positive (by omega) hcount) (by positivity)
    (two_zpow_le (by omega))

end Powers

end Folio.Number
