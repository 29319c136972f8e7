import Folio.Proofs.Number.Rounding
import Folio.Frame

/-!
# Exact numbers

A finite binary32 number is a rational number, and a step does not round when its result is what the
step gives for the rational numbers. A traced number remembers whether a step that led to it rounds.
What is calculated from lengths of any kind can be calculated from traced numbers as well, and where
no step rounds, the result is that of the same calculation with rational numbers.
-/

namespace Folio

namespace Number

open Float.Model Float.Model.UnpackedFloat

/-- The rational number that a binary32 number is; infinities and what is not a number are none. -/
def rational? (x : Float32) : Option ℚ :=
  match x.toModel.unpack with
  | .zero _ => some 0
  | .finite s m e _ => some (s.apply (m : Int) * 2 ^ e)
  | _ => none

/-- A finite number stands for a rational number. -/
theorem exists_rational?_eq_some {x : Float32} (h : x.isFinite = true) :
    ∃ q, rational? x = some q := by
  change x.toModel.unpack.isFinite = true at h
  unfold rational?
  cases hx : x.toModel.unpack with
  | zero s => exact ⟨_, rfl⟩
  | finite s m e hm => exact ⟨_, rfl⟩
  | infinity s =>
    rw [hx] at h
    cases h
  | notANumber =>
    rw [hx] at h
    cases h

/-- Numbers that are not negative are rational numbers that are not. -/
theorem nonneg_of_rational? {x : Float32} {q : ℚ} (hx : 0 ≤ x) (hq : rational? x = some q) :
    0 ≤ q := by
  have hle : ((0 : Float32).toModel.unpack.compare x.toModel.unpack).any (·.isLE) = true :=
    of_decide_eq_true hx
  rw [show (0 : Float32).toModel.unpack = .zero .positive from rfl] at hle
  unfold rational? at hq
  cases hunpack : x.toModel.unpack with
  | zero s =>
    rw [hunpack] at hq
    cases hq
    exact le_rfl
  | finite s m e hm =>
    rw [hunpack] at hq hle
    cases s with
    | negative => cases hle
    | positive =>
      cases hq
      have hm : 0 ≤ Sign.positive.apply (m : Int) := Int.natCast_nonneg m
      have hcast : (0 : ℚ) ≤ (Sign.positive.apply (m : Int) : Int) := Int.cast_nonneg hm
      exact mul_nonneg hcast (by positivity)
  | infinity s =>
    rw [hunpack] at hq
    cases hq
  | notANumber =>
    rw [hunpack] at hq
    cases hq

end Number

open Number

/-- Whether all steps that lengths allow lead from related lengths to related lengths. -/
structure Length.Respects {L M : Type} [Length L] [Length M] (R : L → M → Prop) : Prop where
  add {a b : L} {a' b' : M} (ha : R a a') (hb : R b b') : R (a + b) (a' + b')
  sub {a b : L} {a' b' : M} (ha : R a a') (hb : R b b') : R (a - b) (a' - b')
  mul {a b : L} {a' b' : M} (ha : R a a') (hb : R b b') : R (a * b) (a' * b')
  ofCount (n : Nat) : R (Length.ofCount n) (Length.ofCount n)

/-- A binary32 number that remembers how it was calculated. -/
structure Traced where
  /-- The number. -/
  number : Float32
  /-- Whether no step that led to it rounds. -/
  unrounded : Bool

namespace Traced

/-- A number that is given; what is no rational number counts as rounded. -/
def ofNumber (x : Float32) : Traced := ⟨x, (rational? x).isSome⟩

/-- A step with binary32 numbers, beside the same step with rational numbers. -/
def step (op : Float32 → Float32 → Float32) (f : ℚ → ℚ → ℚ) (a b : Traced) : Traced where
  number := op a.number b.number
  unrounded := a.unrounded && b.unrounded && decide (rational? (op a.number b.number) =
    Option.map₂ f (rational? a.number) (rational? b.number))

instance : Length Traced where
  add := step (· + ·) (· + ·)
  sub := step (· - ·) (· - ·)
  mul := step (· * ·) (· * ·)
  ofCount n := ⟨Length.ofCount n, decide (rational? (Length.ofCount n) = some (n : ℚ))⟩

/-- A traced number stands for a rational number, which it is unless a step rounds. -/
def Stands (x : Traced) (q : ℚ) : Prop := x.unrounded = true → rational? x.number = some q

/-- Tracing does not change what is calculated. -/
theorem respects_number : Length.Respects fun (x : Traced) (y : Float32) => x.number = y where
  add ha hb := congrArg₂ (· + ·) ha hb
  sub ha hb := congrArg₂ (· - ·) ha hb
  mul ha hb := congrArg₂ (· * ·) ha hb
  ofCount _ := rfl

/-- An operation on traced numbers stands for the operation on rational numbers. -/
theorem Stands.step {op : Float32 → Float32 → Float32} {f : ℚ → ℚ → ℚ} {a b : Traced} {p q : ℚ}
    (ha : a.Stands p) (hb : b.Stands q) : (step op f a b).Stands (f p q) := by
  intro h
  obtain ⟨hab, hstep⟩ := Bool.and_eq_true_iff.mp h
  obtain ⟨hexactA, hexactB⟩ := Bool.and_eq_true_iff.mp hab
  have hresult := of_decide_eq_true hstep
  rwa [ha hexactA, hb hexactB, Option.map₂_some_some] at hresult

/-- While no step rounds, the same is calculated as with rational numbers. -/
theorem respects_stands : Length.Respects Stands where
  add := Stands.step
  sub := Stands.step
  mul := Stands.step
  ofCount _ := of_decide_eq_true

end Traced

end Folio
