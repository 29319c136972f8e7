import Folio.Proofs.Number.Rounding

/-!
# Zeros of binary32

The two zeros are equal as numbers, and no sum tells them apart but by the sign of a zero again.
Adding a zero leaves every other number as it is, since taking a number apart and putting it
together again gives the number back.
-/

namespace Folio.Number

open Float.Model Float.Model.UnpackedFloat

/-- Fields that are taken apart and put together again, unless they stand for what is not a
number. -/
theorem pack_unpack_packComponents (s : Sign) (e : BitVec 8) (m : BitVec 23)
    (h : e = -1#8 → m = 0#23) :
    UnpackedFloat.pack Format.binary32
      (UnpackedFloat.unpack Format.binary32 (packComponents Format.binary32 s e m)) =
      packComponents Format.binary32 s e m := by
  have hm := m.isLt
  have he := e.isLt
  rw [unpack_packComponents]
  split
  · rename_i hfull
    rw [if_pos (h hfull), h hfull, hfull]
    rfl
  · rename_i hfull
    have hle : ¬e.toNat = 255 := fun h => hfull (BitVec.eq_of_toNat_eq h)
    split
    · rename_i hempty
      split
      · rename_i hzero
        rw [hempty, hzero]
        rfl
      · rename_i hne
        -- without an exponent there is no leading bit, so the fraction stays below 24 bits
        have hlog : ¬m.toNat.log2 + 1 = 24 := by
          have hzero : m.toNat ≠ 0 := fun h => hne (BitVec.eq_of_toNat_eq h)
          have hlt := (Nat.log2_lt hzero).mpr hm
          omega
        unfold UnpackedFloat.pack
        change (if 2 ^ 8 ≤ ((-149 : Int) + 127 + 23).toNat + 1 then _
          else if m.toNat.log2 + 1 = 24 then _
          else packComponents Format.binary32 s 0#8 (BitVec.ofNat 23 m.toNat)) = _
        rw [if_neg (by decide), if_neg hlog, hempty, BitVec.ofNat_toNat, BitVec.setWidth_eq]
    · have hlog : (2 ^ 23 + m.toNat).log2 = 23 :=
        (Nat.log2_eq_iff (by omega)).mpr ⟨by omega, by omega⟩
      have hfraction : BitVec.ofNat 23 (2 ^ 23 + m.toNat) = m := by
        refine BitVec.eq_of_toNat_eq ?_
        rw [BitVec.toNat_ofNat]
        omega
      have hexponent : ((e.toNat : Int) - 150 + 127 + 23).toNat = e.toNat := by omega
      have hfits : ¬2 ^ 8 ≤ e.toNat + 1 := by omega
      unfold UnpackedFloat.pack
      change (if 2 ^ 8 ≤ ((e.toNat : Int) - 150 + 127 + 23).toNat + 1 then _
        else if (2 ^ 23 + m.toNat).log2 + 1 = 24 then
          packComponents Format.binary32 s (BitVec.ofNat 8 ((e.toNat : Int) - 150 + 127 + 23).toNat)
            (BitVec.ofNat 23 (2 ^ 23 + m.toNat)) else _) = _
      rw [hexponent, if_neg hfits, if_pos (congrArg (· + 1) hlog), hfraction, BitVec.ofNat_toNat,
        BitVec.setWidth_eq]

/-- Taking a number apart loses nothing. -/
theorem pack_unpack (x : Float32.Model) : Float32.Model.pack x.unpack = x := by
  obtain ⟨bits, hvalid⟩ := x
  have hbits : UnpackedFloat.pack Format.binary32 (UnpackedFloat.unpack Format.binary32
      bits.toBitVec) = bits.toBitVec := by
    have hfields :=
      @packComponents_unpackSign_unpackExponent_unpackMantissa Format.binary32 bits.toBitVec
    by_cases hnumber : @unpackExponent Format.binary32 bits.toBitVec = -1#8 →
        @unpackMantissa Format.binary32 bits.toBitVec = 0#23
    · rw [← hfields]
      exact pack_unpack_packComponents _ _ _ hnumber
    · obtain ⟨hfull, hne⟩ := Classical.not_imp.mp hnumber
      rw [hvalid.eq_packedNaN hfull hne]
      rfl
  simp only [Float32.Model.pack, Float32.Model.unpack, hbits]

variable {x y a b c d : Float32}

/-- Numbers that compare as equal are equal or both zero. -/
theorem compare_eq_cases {f g : UnpackedFloat} (h : f.compare g = some .eq) :
    f = g ∨ (∃ s, f = .zero s) ∧ ∃ t, g = .zero t := by
  cases f with
  | notANumber => cases h
  | infinity s =>
    cases g with
    | infinity t => cases s <;> cases t <;> first | exact .inl rfl | cases h
    | notANumber => cases h
    | _ => cases s <;> cases h
  | zero s =>
    cases g with
    | zero t => exact .inr ⟨⟨s, rfl⟩, ⟨t, rfl⟩⟩
    | notANumber => cases h
    | infinity t => cases t <;> cases h
    | finite t m e hm => cases t <;> cases h
  | finite s m e hm =>
    cases g with
    | finite t m' e' hm' =>
      have hparts (hcompare : ((compare e e').then (compare m m')) = .eq) : e = e' ∧ m = m' := by
        obtain ⟨he, hm⟩ := Ordering.then_eq_eq.mp hcompare
        exact ⟨Std.LawfulEqOrd.eq_of_compare he, Std.LawfulEqOrd.eq_of_compare hm⟩
      cases s with
      | negative =>
        cases t with
        | negative =>
          obtain ⟨rfl, rfl⟩ := hparts (Ordering.swap_eq_eq.mp (Option.some.inj h))
          exact .inl rfl
        | positive => cases h
      | positive =>
        cases t with
        | negative => cases h
        | positive =>
          obtain ⟨rfl, rfl⟩ := hparts (Option.some.inj h)
          exact .inl rfl
    | notANumber => cases h
    | infinity t => cases s <;> cases t <;> cases h
    | zero t => cases s <;> cases h

/-- Comparing two numbers the other way round turns the outcome round. -/
theorem compare_swap (f g : UnpackedFloat) : g.compare f = (f.compare g).map Ordering.swap := by
  cases f with
  | notANumber => cases g <;> rfl
  | infinity s =>
    cases g with
    | infinity t => cases s <;> cases t <;> rfl
    | notANumber => rfl
    | zero t => cases s <;> rfl
    | finite t m e hm => cases s <;> cases t <;> rfl
  | zero s =>
    cases g with
    | infinity t => cases t <;> rfl
    | notANumber => rfl
    | zero t => rfl
    | finite t m e hm => cases t <;> rfl
  | finite s m e hm =>
    cases g with
    | infinity t => cases s <;> cases t <;> rfl
    | notANumber => cases s <;> rfl
    | zero t => cases s <;> rfl
    | finite t m' e' hm' =>
      have hparts : (compare e' e).then (compare m' m) =
          ((compare e e').then (compare m m')).swap := by
        rw [Ordering.swap_then, ← Std.OrientedOrd.eq_swap, ← Std.OrientedOrd.eq_swap]
      cases s with
      | negative =>
        cases t with
        | negative => exact congrArg (some ∘ Ordering.swap) hparts
        | positive => rfl
      | positive =>
        cases t with
        | negative => rfl
        | positive => exact congrArg some hparts

/-- What is at most a number is not above it. -/
theorem not_lt_of_le (h : x ≤ y) : ¬y < x := by
  intro hlt
  have hle : (x.toModel.unpack.compare y.toModel.unpack).any (·.isLE) = true := of_decide_eq_true h
  have hgt : y.toModel.unpack.compare x.toModel.unpack = some .lt :=
    eq_of_beq (of_decide_eq_true hlt)
  rw [compare_swap, hgt] at hle
  cases hle

/-- What a number is at most is a number too. -/
theorem isNaN_eq_false_of_le (h : x ≤ y) : y.isNaN = false := by
  have hle : (x.toModel.unpack.compare y.toModel.unpack).any (·.isLE) = true := of_decide_eq_true h
  change y.toModel.unpack.isNaN = false
  cases hy : y.toModel.unpack with
  | notANumber =>
    rw [compare_swap, hy] at hle
    cases hle
  | _ => rfl

/-- A number is zero, of either sign. -/
def IsZero (x : Float32) : Prop := ∃ s, x.toModel.unpack = .zero s

theorem unpack_zero : (0 : Float32).toModel.unpack = .zero .positive := rfl

/-- A number is zero exactly when it equals zero. -/
theorem isZero_iff : IsZero x ↔ (x == 0) = true := by
  change (∃ s, x.toModel.unpack = .zero s) ↔
    (x.toModel.unpack.compare (0 : Float32).toModel.unpack == some .eq) = true
  rw [unpack_zero]
  constructor
  · rintro ⟨s, hs⟩
    rw [hs]
    rfl
  · intro heq
    rcases compare_eq_cases (eq_of_beq heq) with hx | ⟨hx, -⟩
    · exact ⟨_, hx⟩
    · exact hx

/-- A number that is not below zero is at least zero. -/
theorem zero_le_of_not_lt (hnumber : x.isNaN = false) (hx : ¬x < 0) : 0 ≤ x := by
  have hlt : ¬(x.toModel.unpack.compare (0 : Float32).toModel.unpack == some .lt) = true :=
    fun h => hx (decide_eq_true h)
  change x.toModel.unpack.isNaN = false at hnumber
  have hle : ((0 : Float32).toModel.unpack.compare x.toModel.unpack).any (·.isLE) = true := by
    rw [unpack_zero] at hlt ⊢
    cases hunpack : x.toModel.unpack with
    | notANumber =>
      rw [hunpack] at hnumber
      cases hnumber
    | zero s => rfl
    | infinity s =>
      cases s with
      | positive => rfl
      | negative =>
        rw [hunpack] at hlt
        exact absurd rfl hlt
    | finite s m e hm =>
      cases s with
      | positive => rfl
      | negative =>
        rw [hunpack] at hlt
        exact absurd rfl hlt
  exact decide_eq_true hle

/-- A sum of zeros is zero. -/
theorem isZero_add (hx : IsZero x) (hy : IsZero y) : IsZero (x + y) := by
  obtain ⟨s, hs⟩ := hx
  obtain ⟨t, ht⟩ := hy
  change ∃ u, (Float32.Model.pack (UnpackedFloat.add Format.binary32 x.toModel.unpack
    y.toModel.unpack)).unpack = .zero u
  rw [hs, ht]
  cases s <;> cases t <;> exact ⟨_, rfl⟩

/-- Adding to a zero gives the other number. -/
theorem add_of_isZero_left (hx : IsZero x) (hy : ¬IsZero y) : x + y = y := by
  obtain ⟨s, hs⟩ := hx
  have hadd : UnpackedFloat.add Format.binary32 x.toModel.unpack y.toModel.unpack =
      y.toModel.unpack := by
    rw [hs]
    cases hy' : y.toModel.unpack with
    | zero t => exact absurd ⟨t, hy'⟩ hy
    | _ => rfl
  exact congrArg Float32.ofModel ((congrArg Float32.Model.pack hadd).trans (pack_unpack y.toModel))

/-- Adding a zero gives the other number. -/
theorem add_of_isZero_right (hx : ¬IsZero x) (hy : IsZero y) : x + y = x := by
  obtain ⟨s, hs⟩ := hy
  have hadd : UnpackedFloat.add Format.binary32 x.toModel.unpack y.toModel.unpack =
      x.toModel.unpack := by
    rw [hs]
    cases hx' : x.toModel.unpack with
    | zero t => exact absurd ⟨t, hx'⟩ hx
    | _ => rfl
  exact congrArg Float32.ofModel ((congrArg Float32.Model.pack hadd).trans (pack_unpack x.toModel))

/-- Subtracting zero leaves every number as it is, the signs of zeros included. -/
theorem sub_zero (x : Float32) : x - 0 = x := by
  have hsub : UnpackedFloat.sub Format.binary32 x.toModel.unpack (0 : Float32).toModel.unpack =
      x.toModel.unpack := by
    rw [unpack_zero]
    cases x.toModel.unpack with
    | zero t => cases t <;> rfl
    | _ => rfl
  exact congrArg Float32.ofModel ((congrArg Float32.Model.pack hsub).trans (pack_unpack x.toModel))

/-- Two numbers are the same, but perhaps for the sign of a zero. -/
def Same (x y : Float32) : Prop := x = y ∨ (x == y) = true

/-- A number is determined by what it is unpacked to. -/
theorem eq_of_unpack_eq (h : x.toModel.unpack = y.toModel.unpack) : x = y := by
  have hmodel := congrArg Float32.Model.pack h
  rw [pack_unpack, pack_unpack] at hmodel
  exact congrArg Float32.ofModel hmodel

/-- Numbers that are equal as numbers are the same, or both are zero. -/
theorem same_iff : Same x y ↔ x = y ∨ IsZero x ∧ IsZero y := by
  constructor
  · rintro (heq | hbeq)
    · exact .inl heq
    · change (x.toModel.unpack.compare y.toModel.unpack == some .eq) = true at hbeq
      exact (compare_eq_cases (eq_of_beq hbeq)).imp_left eq_of_unpack_eq
  · rintro (heq | ⟨⟨s, hs⟩, ⟨t, ht⟩⟩)
    · exact .inl heq
    · right
      change (x.toModel.unpack.compare y.toModel.unpack == some .eq) = true
      rw [hs, ht]
      rfl

theorem Same.refl (x : Float32) : Same x x := .inl rfl

theorem Same.trans {z : Float32} (hxy : Same x y) (hyz : Same y z) : Same x z := by
  rw [same_iff] at hxy hyz ⊢
  rcases hxy with rfl | ⟨hx, hy⟩
  · exact hyz
  · rcases hyz with rfl | ⟨_, hz⟩
    · exact .inr ⟨hx, hy⟩
    · exact .inr ⟨hx, hz⟩

/-- A sum depends on the sign of a zero only for the sign of a zero. -/
theorem Same.add_right (h : Same a b) (c : Float32) : Same (a + c) (b + c) := by
  rcases same_iff.mp h with rfl | ⟨ha, hb⟩
  · exact .refl _
  · by_cases hc : IsZero c
    · exact same_iff.mpr (.inr ⟨isZero_add ha hc, isZero_add hb hc⟩)
    · exact .inl ((add_of_isZero_left ha hc).trans (add_of_isZero_left hb hc).symm)

theorem Same.add_left (h : Same a b) (c : Float32) : Same (c + a) (c + b) := by
  rcases same_iff.mp h with rfl | ⟨ha, hb⟩
  · exact .refl _
  · by_cases hc : IsZero c
    · exact same_iff.mpr (.inr ⟨isZero_add hc ha, isZero_add hc hb⟩)
    · exact .inl ((add_of_isZero_right hc ha).trans (add_of_isZero_right hc hb).symm)

theorem Same.add (hab : Same a b) (hcd : Same c d) : Same (a + c) (b + d) :=
  (hab.add_right c).trans (hcd.add_left b)

theorem same_add_zero (x : Float32) : Same (x + 0) x := by
  have hzero : IsZero 0 := ⟨.positive, unpack_zero⟩
  by_cases hx : IsZero x
  · exact same_iff.mpr (.inr ⟨isZero_add hx hzero, hx⟩)
  · exact .inl (add_of_isZero_right hx hzero)

theorem same_zero_add (x : Float32) : Same (0 + x) x := by
  have hzero : IsZero 0 := ⟨.positive, unpack_zero⟩
  by_cases hx : IsZero x
  · exact same_iff.mpr (.inr ⟨isZero_add hzero hx, hx⟩)
  · exact .inl (add_of_isZero_left hzero hx)

end Folio.Number
