import Folio.Number.Shortest

/-!
# Digits of shortest decimals

The digits of a shortest decimal are decimal digits, and they begin with a zero only for the decimal
of zero; so they can be written as they are. Every finite number has parts of which a decimal is
taken.
-/

namespace Folio.Number

/-- The digits of a positive number begin with no zero. -/
theorem exists_toDigits_eq_cons {n : Nat} (h : 0 < n) :
    ∃ c rest, Nat.toDigits 10 n = c :: rest ∧ c ≠ '0' := by
  induction n using Nat.strongRecOn with
  | _ n ih =>
    by_cases hn : n < 10
    · have hchar : ∀ d < 10, 0 < d → d.digitChar ≠ '0' := by decide
      exact ⟨n.digitChar, [], Nat.toDigits_of_lt_base hn, hchar n hn h⟩
    · obtain ⟨c, rest, hdigits, hc⟩ := ih (n / 10) (by omega) (by omega)
      refine ⟨c, rest ++ [(n % 10).digitChar], ?_, hc⟩
      rw [Nat.toDigits_of_base_le (by decide) (by omega), hdigits, List.cons_append]

/-- The digits of a decimal begin with a zero only if the decimal is zero. -/
structure Decimal.Proper (d : Decimal) : Prop where
  digits : ∀ c ∈ d.digits, c.isDigit = true
  head : ∃ c rest, d.digits = c :: rest ∧ (c = '0' → rest = [] ∧ d.leading = 0)

theorem Decimal.proper_zero : Proper ⟨['0'], 0⟩ where
  digits := List.forall_mem_singleton.mpr rfl
  head := ⟨'0', [], rfl, fun _ => ⟨rfl, rfl⟩⟩

/-- A decimal on a grid is written without needless zeros. -/
theorem Decimal.proper_ofGridPoint {point : Nat} (h : 0 < point) (grid : Int) :
    (ofGridPoint point grid).Proper where
  digits := fun _ => Nat.isDigit_of_mem_toDigits (by decide) (Nat.le_refl 10)
  head := by
    obtain ⟨c, rest, hdigits, hc⟩ := exists_toDigits_eq_cons h
    exact ⟨c, rest, hdigits, fun hzero => absurd hzero hc⟩

namespace RoundingInterval

variable {interval : RoundingInterval}

/-- A point near a positive number is positive. -/
theorem pos_of_holds {unit gridUnit point : Nat} (h : interval.holds unit gridUnit point = true)
    (hunit : 0 < unit) (hlow : 0 < interval.low) (hhigh : 0 < interval.high) : 0 < point := by
  have hlow := Nat.mul_pos hlow hunit
  have hhigh := Nat.mul_pos hhigh hunit
  refine Nat.pos_of_ne_zero fun hzero => ?_
  subst hzero
  simp only [holds, Nat.zero_mul, Bool.or_eq_true, Bool.and_eq_true, decide_eq_true_eq,
    beq_iff_eq] at h
  omega

/-- The nearest point of a grid lies in the interval, if there is one. -/
theorem holds_of_nearest? {tie : Tie} {grid : Int} {point : Nat}
    (h : interval.nearest? tie grid = some point) :
    ∃ unit gridUnit, 0 < unit ∧ interval.holds unit gridUnit point = true := by
  refine ⟨Nat.pow 2 interval.scale.toNat * Nat.pow 10 (-grid).toNat,
    Nat.pow 10 grid.toNat * Nat.pow 2 (-interval.scale).toNat,
    Nat.mul_pos (Nat.pow_pos (by decide)) (Nat.pow_pos (by decide)), ?_⟩
  unfold nearest? at h
  dsimp only at h
  split at h
  · cases h
  · cases h
    assumption
  · cases h
    assumption
  · split at h
    · cases h
      assumption
    · split at h
      · cases h
        assumption
      · split at h
        · cases h
          split <;> assumption
        · cases h
          assumption

/-- The midpoint below a positive number is positive. -/
theorem low_pos {significand : Nat} (h : significand ≠ 0) (exponent : Int) :
    0 < (ofParts significand exponent).low := by
  show 0 < 4 * significand - (if significand = Nat.pow 2 23 ∧ -149 < exponent then 1 else 2)
  split <;> omega

end RoundingInterval

/-- The shortest decimal of a number is zero or has no zero in front. -/
theorem proper_shortest (tie : Tie) (significand : Nat) (exponent : Int) :
    (shortest tie significand exponent).Proper := by
  unfold shortest
  split
  · exact Decimal.proper_zero
  · rename_i hne
    dsimp only
    cases hhits : grids.findSome? fun grid =>
        ((RoundingInterval.ofParts significand exponent).nearest? tie grid).map fun point =>
          Decimal.ofGridPoint point grid with
    | none => exact Decimal.proper_zero
    | some d =>
      obtain ⟨grid, _, hgrid⟩ := List.exists_of_findSome?_eq_some hhits
      obtain ⟨point, hpoint, rfl⟩ := Option.map_eq_some_iff.mp hgrid
      obtain ⟨unit, gridUnit, hunit, hholds⟩ := RoundingInterval.holds_of_nearest? hpoint
      have hhigh : 0 < 4 * significand + 2 := Nat.succ_pos _
      exact Decimal.proper_ofGridPoint (RoundingInterval.pos_of_holds hholds hunit
        (RoundingInterval.low_pos hne exponent) hhigh) grid

open Float.Model in
/-- The exponent field of a finite number is not full. -/
theorem exponent_ne_of_isFinite {x : Float32} (h : x.isFinite = true) :
    x.toBits.toNat / Nat.pow 2 23 % Nat.pow 2 8 ≠ 255 := by
  intro hfull
  have hexponent :
      @UnpackedFloat.unpackExponent Format.binary32 x.toBits.toBitVec = -1#_ := by
    apply BitVec.eq_of_toNat_eq
    simpa [UnpackedFloat.unpackExponent, Nat.shiftRight_eq_div_pow] using hfull
  have hstatus :
      (UnpackedFloat.unpack Format.binary32 x.toBits.toBitVec).isFinite = true := h
  unfold UnpackedFloat.unpack at hstatus
  dsimp only at hstatus
  rw [if_pos hexponent] at hstatus
  split at hstatus <;> cases hstatus

/-- A finite number has a sign, a significand and an exponent. -/
theorem Parts.exists_ofFloat32_eq_finite {x : Float32} (h : x.isFinite = true) :
    ∃ negative significand exponent,
      Parts.ofFloat32 x = .finite negative significand exponent := by
  unfold ofFloat32
  dsimp only
  rw [if_neg (exponent_ne_of_isFinite h)]
  split
  · exact ⟨_, _, _, rfl⟩
  · exact ⟨_, _, _, rfl⟩

end Folio.Number
