import Mathlib

/-!
# Rounding to binary32

A result that is not a binary32 number is shifted to the grid of such numbers, and the nearest point
of the grid is taken, of two equally near points the even one. What is at most half a step above a
power of two is therefore rounded to at most that power. The results of additions, multiplications
and conversions are all rounded in this way.
-/

namespace Folio.Number

open Float.Model Float.Model.UnpackedFloat

/-- What is left of a number that has been shifted to the right: the quotient, whether half a step
or more is lost, and whether what is lost differs from nothing and from half a step. -/
structure Shifted (m n : Nat) (em : ExtendedMantissa) : Prop where
  mantissa : em.mantissa = m / 2 ^ n
  roundBit : em.roundBit = true ↔ 2 ^ n ≤ 2 * (m % 2 ^ n)
  stickyBit : em.stickyBit = true ↔ m % 2 ^ n ≠ 0 ∧ 2 * (m % 2 ^ n) ≠ 2 ^ n

theorem Shifted.shiftRightOne {m n : Nat} {em : ExtendedMantissa} (h : Shifted m n em) :
    Shifted m (n + 1) em.shiftRightOne := by
  have hmod : m % 2 ^ (n + 1) = m % 2 ^ n + 2 ^ n * (m / 2 ^ n % 2) := Nat.mod_pow_succ
  have hlt : m % 2 ^ n < 2 ^ n := Nat.mod_lt _ (Nat.two_pow_pos n)
  have hbit := Nat.mod_two_eq_zero_or_one (m / 2 ^ n)
  constructor
  · rw [ExtendedMantissa.shiftRightOne, h.mantissa, Nat.div_div_eq_div_mul, Nat.pow_succ]
  · rw [ExtendedMantissa.shiftRightOne, h.mantissa, hmod, Nat.pow_succ]
    rcases hbit with hbit | hbit
    · simp [hbit]; omega
    · simp [hbit]; omega
  · rw [ExtendedMantissa.shiftRightOne, Bool.or_eq_true, h.roundBit, h.stickyBit, hmod,
      Nat.pow_succ]
    rcases hbit with hbit | hbit
    · rw [hbit]; omega
    · rw [hbit]; omega

/-- Shifting a significand keeps what rounding has to know of the bits that are lost. -/
theorem shifted_shiftRight (m n : Nat) :
    Shifted m n (ExtendedMantissa.ofMantissaAndAccuracy m .exact >>> n) := by
  change Shifted m n (n.repeat ExtendedMantissa.shiftRightOne _)
  induction n with
  | zero => exact ⟨by simp [Nat.repeat, ExtendedMantissa.ofMantissaAndAccuracy],
      by simp [Nat.repeat, ExtendedMantissa.ofMantissaAndAccuracy, Nat.mod_one],
      by simp [Nat.repeat, ExtendedMantissa.ofMantissaAndAccuracy, Nat.mod_one]⟩
  | succ n ih => exact ih.shiftRightOne

namespace Shifted

variable {m n : Nat} {em : ExtendedMantissa}

/-- Rounding goes up only if half a step or more is lost, and from half a step only to an even
number. -/
theorem roundedMantissa_cases (h : Shifted m n em) :
    em.roundedMantissa = m / 2 ^ n ∨
      em.roundedMantissa = m / 2 ^ n + 1 ∧ 2 ^ n ≤ 2 * (m % 2 ^ n) ∧
        (2 * (m % 2 ^ n) = 2 ^ n → m / 2 ^ n % 2 = 1) := by
  obtain ⟨mantissa, roundBit, stickyBit⟩ := em
  obtain ⟨hmantissa, hround, hsticky⟩ := h
  dsimp only at hmantissa hround hsticky
  cases roundBit with
  | false => cases stickyBit <;> exact .inl hmantissa
  | true =>
    have hhalf := hround.mp rfl
    cases stickyBit with
    | false =>
      have heq : (ExtendedMantissa.mk mantissa true false).roundedMantissa =
          m / 2 ^ n + m / 2 ^ n % 2 := by
        rw [← hmantissa]
        rfl
      rcases Nat.mod_two_eq_zero_or_one (m / 2 ^ n) with heven | hodd
      · exact .inl (by rw [heq, heven, Nat.add_zero])
      · exact .inr ⟨by rw [heq, hodd], hhalf, fun _ => hodd⟩
    | true =>
      have hlost := (hsticky.mp rfl).2
      exact .inr ⟨congrArg (· + 1) hmantissa, hhalf, fun heq => (hlost heq).elim⟩

/-- Rounding a shifted significand does not go below the quotient. -/
theorem le_roundedMantissa (h : Shifted m n em) : m / 2 ^ n ≤ em.roundedMantissa := by
  rcases h.roundedMantissa_cases with heq | ⟨heq, _⟩ <;> omega

/-- Rounding does not pass a point of the grid. -/
theorem roundedMantissa_le {k : Nat} (h : Shifted m n em) (hm : m ≤ k * 2 ^ n) :
    em.roundedMantissa ≤ k := by
  have hdiv : m / 2 ^ n ≤ k := Nat.div_le_of_le_mul (Nat.mul_comm k _ ▸ hm)
  rcases h.roundedMantissa_cases with heq | ⟨heq, hhalf, _⟩
  · omega
  · rcases Nat.lt_or_eq_of_le hdiv with hlt | rfl
    · omega
    · have hsplit := Nat.div_add_mod' m (2 ^ n)
      have hpos := Nat.two_pow_pos n
      omega

/-- What is at most half a step above an even point of the grid is rounded to at most that point. -/
theorem roundedMantissa_le_of_even {k : Nat} (h : Shifted m n em) (heven : k % 2 = 0)
    (hm : 2 * m ≤ (2 * k + 1) * 2 ^ n) : em.roundedMantissa ≤ k := by
  have hsplit := Nat.div_add_mod' m (2 ^ n)
  have hpos := Nat.two_pow_pos n
  have hdiv : m / 2 ^ n ≤ k := by
    have hlt : m < (k + 1) * 2 ^ n := by
      rw [Nat.add_mul] at hm ⊢
      rw [Nat.mul_assoc] at hm
      omega
    exact Nat.le_of_lt_succ (Nat.div_lt_of_lt_mul (Nat.mul_comm _ (2 ^ n) ▸ hlt))
  rcases h.roundedMantissa_cases with heq | ⟨heq, hhalf, hodd⟩
  · omega
  · rcases Nat.lt_or_eq_of_le hdiv with hlt | rfl
    · omega
    · rw [Nat.add_mul, Nat.mul_assoc] at hm
      have htie := hodd (by omega)
      omega

end Shifted

/-- A number in the form that binary32 numbers have when they are taken apart, of at most some
magnitude. -/
inductive Bounded (b : ℚ) : UnpackedFloat → Prop where
  | zero (s : Sign) : Bounded b (.zero s)
  | finite (s : Sign) (m : Nat) (e : Int) (hm : 0 < m) (hlt : m < 2 ^ 24) (hmin : -149 ≤ e)
      (hnormal : 2 ^ 23 ≤ m ∨ e = -149) (hb : (m : ℚ) * 2 ^ e ≤ b) : Bounded b (.finite s m e hm)

/-- A number is rounded to 24 bits, or to the least exponent. -/
theorem targetExponent_eq (m : Nat) (e : Int) :
    Format.binary32.targetExponent (totalExponent m e) = max (m.log2 + e - 23) (-149) := by
  simp only [Format.targetExponent, totalExponent, Format.mantissaBits, Format.minExponent]
  norm_num
  omega

/-- Whatever has at most 24 bits and lies on the grid stays as it is. -/
theorem shiftToTargetExponent_of_lt {m : Nat} {e : Int} (hm : m < 2 ^ 24) (he : -149 ≤ e) :
    shiftToTargetExponent Format.binary32 m e .exact = (⟨m, false, false⟩, e) := by
  have hlog : m.log2 ≤ 23 := by
    by_cases hzero : m = 0
    · rw [hzero]
      decide
    · exact Nat.le_of_lt_succ ((Nat.log2_lt hzero).mpr hm)
  have hstay : (Format.binary32.targetExponent (totalExponent m e) - e).toNat = 0 := by
    rw [targetExponent_eq]
    omega
  unfold shiftToTargetExponent shiftToExponent
  dsimp only
  rw [hstay]
  exact congrArg (Prod.mk _) (Int.add_zero e)

/-- A carry to a 25th bit is shifted out. -/
theorem shiftToTargetExponent_two_pow {e : Int} (he : -149 ≤ e) :
    shiftToTargetExponent Format.binary32 (2 ^ 24) e .exact = (⟨2 ^ 23, false, false⟩, e + 1) := by
  have hcarry : (Format.binary32.targetExponent (totalExponent (2 ^ 24) e) - e).toNat = 1 := by
    rw [targetExponent_eq, Nat.log2_two_pow]
    omega
  unfold shiftToTargetExponent shiftToExponent
  dsimp only
  rw [hcarry]
  rfl

section Round

variable {m n : Nat} {e t v : Int} {em : ExtendedMantissa}

theorem two_zpow_add (a b : Int) : (2 : ℚ) ^ (a + b) = 2 ^ a * 2 ^ b :=
  zpow_add₀ two_ne_zero a b

/-- A number that is shifted to the grid has at most 24 bits there, or carries to a 25th. -/
theorem roundedMantissa_le_two_pow (h : Shifted m n em) (ht : m.log2 + e - 23 ≤ t)
    (hn : e + n = t) : em.roundedMantissa ≤ 2 ^ 24 := by
  refine h.roundedMantissa_le ?_
  have hle : 2 ^ (m.log2 + 1) ≤ 2 ^ (24 + n) := Nat.pow_le_pow_right (by decide) (by omega)
  rw [← Nat.pow_add]
  exact Nat.le_of_lt (Nat.lt_of_lt_of_le Nat.lt_log2_self hle)

/-- A number that is not shifted to the lowest grid keeps 24 bits. -/
theorem two_pow_le_roundedMantissa (h : Shifted m n em) (hm : m ≠ 0) (ht : t = m.log2 + e - 23)
    (hn : e + n = t) : 2 ^ 23 ≤ em.roundedMantissa := by
  refine Nat.le_trans ?_ h.le_roundedMantissa
  rw [Nat.le_div_iff_mul_le (Nat.two_pow_pos n), ← Nat.pow_add]
  have hlog : 23 + n = m.log2 := by omega
  rw [hlog]
  exact Nat.log2_self_le hm

/-- What is at most half a step above a power of two is rounded to at most that power. -/
theorem roundedMantissa_mul_le (h : Shifted m n em) (ht : t = max (m.log2 + e - 23) (-149))
    (hn : e + n = t) (hv : -126 ≤ v) (hb : (m : ℚ) * 2 ^ e ≤ 2 ^ v + 2 ^ (v - 24)) :
    (em.roundedMantissa : ℚ) * 2 ^ t ≤ 2 ^ v := by
  have hpos : (0 : ℚ) < 2 ^ e := zpow_pos two_pos e
  rcases lt_trichotomy t (v - 23) with hlt | heq | hgt
  · -- the power is far above the number, which has at most 24 bits on the grid
    have hround : em.roundedMantissa ≤ 2 ^ (v - t).toNat := by
      refine h.roundedMantissa_le ?_
      rw [← Nat.pow_add]
      refine Nat.le_of_lt (Nat.lt_of_lt_of_le Nat.lt_log2_self ?_)
      exact Nat.pow_le_pow_right (by decide) (by omega)
    calc (em.roundedMantissa : ℚ) * 2 ^ t
      _ ≤ (2 ^ (v - t).toNat : ℕ) * 2 ^ t := by gcongr
      _ = 2 ^ v := by
        rw [Nat.cast_pow, Nat.cast_ofNat, ← zpow_natCast, ← two_zpow_add]
        congr 1
        omega
  · -- the number has 24 bits, and the power is an even point of the grid
    have hround : em.roundedMantissa ≤ 2 ^ 23 := by
      refine h.roundedMantissa_le_of_even (by decide) ?_
      have hgrid : (2 : ℚ) ^ t = 2 ^ n * 2 ^ e := by
        rw [← hn, Int.add_comm, two_zpow_add, zpow_natCast]
      have hpower : (2 : ℚ) ^ v = 2 ^ 23 * 2 ^ t := by
        rw [show v = 23 + t by omega, two_zpow_add]
        rfl
      have hhalf : (2 : ℚ) ^ (v - 24) = 2⁻¹ * 2 ^ t := by
        rw [show v - 24 = -1 + t by omega, two_zpow_add, zpow_neg_one]
      have hdouble : ((2 * m : ℕ) : ℚ) * 2 ^ e ≤ ((2 * 2 ^ 23 + 1) * 2 ^ n : ℕ) * 2 ^ e := by
        rw [hpower, hhalf, hgrid] at hb
        push_cast
        linarith
      exact_mod_cast le_of_mul_le_mul_right hdouble hpos
    calc (em.roundedMantissa : ℚ) * 2 ^ t
      _ ≤ (2 ^ 23 : ℕ) * 2 ^ t := by gcongr
      _ = 2 ^ v := by
        rw [Nat.cast_pow, Nat.cast_ofNat, ← zpow_natCast, ← two_zpow_add]
        congr 1
        omega
  · -- the number would be twice the power or more, unless it is zero
    by_cases hm : m = 0
    · have hzero : em.roundedMantissa ≤ 0 := h.roundedMantissa_le (by simp [hm])
      rw [Nat.le_zero.mp hzero, Nat.cast_zero, zero_mul]
      positivity
    · exfalso
      have hlow : (2 : ℚ) ^ m.log2 * 2 ^ e ≤ m * 2 ^ e := by
        gcongr
        exact_mod_cast Nat.log2_self_le hm
      have htwice : (2 : ℚ) ^ (v + 1) ≤ 2 ^ (m.log2 + e) := by
        exact zpow_le_zpow_right₀ one_le_two (by omega)
      have hhalf : (2 : ℚ) ^ (v - 24) < 2 ^ v := zpow_lt_zpow_right₀ one_lt_two (by omega)
      rw [two_zpow_add, two_zpow_add, zpow_natCast, zpow_one] at htwice
      linarith

/-- A number shifted to its grid and rounded there is in the form of binary32 numbers, once a carry
has been shifted out. -/
theorem bounded_of_shift {b : ℚ} (s : Sign)
    (hfirst : shiftToTargetExponent Format.binary32 m e .exact = (em, t)) (hmin : -149 ≤ t)
    (hcarry : em.roundedMantissa ≤ 2 ^ 24) (hnormal : 2 ^ 23 ≤ em.roundedMantissa ∨ t = -149)
    (hb : (em.roundedMantissa : ℚ) * 2 ^ t ≤ b) :
    Bounded b (roundWithAccuracy Format.binary32 s m e .exact) := by
  unfold roundWithAccuracy
  rw [hfirst]
  dsimp only
  rcases Nat.lt_or_eq_of_le hcarry with hlt | hfull
  · rw [shiftToTargetExponent_of_lt hlt hmin]
    split
    · exact .zero s
    · exact .finite s _ t _ hlt hmin hnormal hb
  · rw [hfull] at hb ⊢
    rw [shiftToTargetExponent_two_pow hmin]
    refine .finite s (2 ^ 23) (t + 1) _ (by decide) (by omega) (.inl (Nat.le_refl _)) ?_
    rw [two_zpow_add]
    norm_num at hb ⊢
    linarith

/-- What is at most half a step above a power of two is rounded to at most that power, unless it
would have to be shifted to the left for this. -/
theorem bounded_roundWithAccuracy (s : Sign)
    (he : e ≤ Format.binary32.targetExponent (totalExponent m e)) (hv : -126 ≤ v)
    (hb : (m : ℚ) * 2 ^ e ≤ 2 ^ v + 2 ^ (v - 24)) :
    Bounded (2 ^ v) (roundWithAccuracy Format.binary32 s m e .exact) := by
  generalize ht : Format.binary32.targetExponent (totalExponent m e) = t at he
  have hshifted := shifted_shiftRight m (t - e).toNat
  have hn : e + (t - e).toNat = t := by omega
  have hfirst : shiftToTargetExponent Format.binary32 m e .exact =
      (ExtendedMantissa.ofMantissaAndAccuracy m .exact >>> (t - e).toNat, t) := by
    unfold shiftToTargetExponent shiftToExponent
    dsimp only
    rw [ht]
    exact congrArg (Prod.mk _) hn
  rw [targetExponent_eq] at ht
  refine bounded_of_shift s hfirst (by omega)
    (roundedMantissa_le_two_pow (t := t) hshifted (by omega) hn) ?_
    (roundedMantissa_mul_le hshifted ht.symm hn hv hb)
  by_cases hmin : t = -149
  · exact .inr hmin
  · -- zero has no bits, so nothing but the lowest grid is right for it
    refine .inl (two_pow_le_roundedMantissa hshifted ?_ (by omega) hn)
    rintro rfl
    rw [show Nat.log2 0 = 0 from by decide] at ht
    omega

end Round

theorem log2_mul_two_pow {m : Nat} (hm : m ≠ 0) (k : Nat) : (m * 2 ^ k).log2 = m.log2 + k := by
  have hne : m * 2 ^ k ≠ 0 := Nat.mul_ne_zero hm (Nat.two_pow_pos k).ne'
  rw [Nat.log2_eq_iff hne, Nat.add_right_comm, Nat.pow_add, Nat.pow_add]
  constructor
  · exact Nat.mul_le_mul_right _ (Nat.log2_self_le hm)
  · exact Nat.mul_lt_mul_of_pos_right Nat.lt_log2_self (Nat.two_pow_pos k)

theorem shifted_mul_zpow (m k : Nat) (e : Int) :
    ((m * 2 ^ k : ℕ) : ℚ) * 2 ^ (e - k) = m * 2 ^ e := by
  rw [Nat.cast_mul, Nat.cast_pow, Nat.cast_ofNat, mul_assoc, ← zpow_natCast, ← two_zpow_add]
  congr 2
  omega

/-- Numbers with few bits are shifted to more bits before they are rounded. -/
theorem bounded_round {m : Nat} {e v : Int} (s : Sign) (hm : m ≠ 0) (hv : -126 ≤ v)
    (hb : (m : ℚ) * 2 ^ e ≤ 2 ^ v + 2 ^ (v - 24)) :
    Bounded (2 ^ v) (UnpackedFloat.round Format.binary32 s m e) := by
  unfold UnpackedFloat.round decreaseExponent
  dsimp only
  rw [Nat.shiftLeft_eq]
  refine bounded_roundWithAccuracy s ?_ hv ?_
  · rw [targetExponent_eq, targetExponent_eq, log2_mul_two_pow hm]
    omega
  · rw [shifted_mul_zpow]
    exact hb

/-- A sum is rounded by its sign. -/
theorem bounded_normalize {m e v : Int} (zeroSign : Sign) (hv : -126 ≤ v)
    (hb : (m.natAbs : ℚ) * 2 ^ e ≤ 2 ^ v + 2 ^ (v - 24)) :
    Bounded (2 ^ v) (UnpackedFloat.normalize Format.binary32 m e zeroSign) := by
  unfold UnpackedFloat.normalize
  rcases lt_trichotomy m 0 with hlt | rfl | hgt
  · rw [Int.compare_eq_lt.mpr hlt]
    refine bounded_round .negative (by omega) hv ?_
    rwa [show (-m).toNat = m.natAbs by omega]
  · exact .zero zeroSign
  · rw [Int.compare_eq_gt.mpr hgt]
    refine bounded_round .positive (by omega) hv ?_
    rwa [show m.toNat = m.natAbs by omega]

/-- The fields of a binary32 number, put together and taken apart again. -/
theorem unpack_packComponents (s : Sign) (e : BitVec 8) (m : BitVec 23) :
    UnpackedFloat.unpack Format.binary32 (packComponents Format.binary32 s e m) =
      if e = -1#8 then (if m = 0#23 then .infinity s else .notANumber)
      else if e = 0#8 then
        if h : m = 0#23 then .zero s
        else .finite s m.toNat (-149) (Nat.pos_of_ne_zero fun h0 => h (BitVec.eq_of_toNat_eq h0))
      else .finite s (2 ^ 23 + m.toNat) (e.toNat - 150) (by omega) := by
  have hsign : Sign.ofBitVec s.toBitVec = s := by cases s <;> rfl
  have hleading : (1#1 ++ m).toNat = 2 ^ 23 + m.toNat := by
    rw [BitVec.toNat_append, ← Nat.shiftLeft_add_eq_or_of_lt m.isLt]
    rfl
  unfold UnpackedFloat.unpack
  simp only [unpackMantissa_packComponents, unpackExponent_packComponents,
    unpackSign_packComponents, hsign, hleading]
  by_cases he : e = 0#8
  · subst he
    rfl
  · simp only [he, ↓reduceIte]
    rfl

/-- A number below the greatest one has an exponent that can be packed. -/
theorem Bounded.exponent_le {b : ℚ} {s : Sign} {m : Nat} {e : Int} {hm : 0 < m}
    (h : Bounded b (.finite s m e hm)) (hb : b ≤ 2 ^ (127 : Int)) : e ≤ 104 := by
  cases h with
  | finite _ _ _ _ _ _ hnormal hle =>
    rcases hnormal with hnormal | rfl
    · have hlow : (2 : ℚ) ^ (23 + e) ≤ m * 2 ^ e := by
        rw [two_zpow_add]
        gcongr
        exact_mod_cast hnormal
      have hpow := (zpow_le_zpow_iff_right₀ (one_lt_two (α := ℚ))).mp (hlow.trans (hle.trans hb))
      omega
    · decide

/-- A number with a full significand is unpacked as it was packed. -/
theorem unpack_pack_normal (s : Sign) {m : Nat} {e : Int} (hm : 0 < m) (hbits : 2 ^ 23 ≤ m)
    (hlt : m < 2 ^ 24) (hmin : -149 ≤ e) (hmax : e ≤ 104) :
    UnpackedFloat.unpack Format.binary32 (UnpackedFloat.pack Format.binary32 (.finite s m e hm)) =
      .finite s m e hm := by
  have hfits : ¬2 ^ 8 ≤ (e + 127 + 23).toNat + 1 := by omega
  have hlog : m.log2 + 1 = 24 := by
    rw [(Nat.log2_eq_iff hm.ne').mpr ⟨hbits, hlt⟩]
  have hexponent : (BitVec.ofNat 8 (e + 127 + 23).toNat).toNat = (e + 150).toNat := by
    rw [BitVec.toNat_ofNat, Nat.mod_eq_of_lt (by omega)]
    omega
  have hfraction : 2 ^ 23 + (BitVec.ofNat 23 m).toNat = m := by
    rw [BitVec.toNat_ofNat]
    omega
  have hfull : BitVec.ofNat 8 (e + 127 + 23).toNat ≠ -1#8 := by
    intro heq
    have hall : (e + 150).toNat = 255 := hexponent.symm.trans (congrArg BitVec.toNat heq)
    omega
  have hempty : BitVec.ofNat 8 (e + 127 + 23).toNat ≠ 0#8 := by
    intro heq
    have hnone : (e + 150).toNat = 0 := hexponent.symm.trans (congrArg BitVec.toNat heq)
    omega
  unfold UnpackedFloat.pack
  change UnpackedFloat.unpack Format.binary32 (if 2 ^ 8 ≤ (e + 127 + 23).toNat + 1 then _
    else if m.log2 + 1 = 24 then packComponents _ s (BitVec.ofNat 8 (e + 127 + 23).toNat)
      (BitVec.ofNat 23 m) else packComponents _ s 0#8 (BitVec.ofNat 23 m)) = _
  rw [if_neg hfits, if_pos hlog, unpack_packComponents, if_neg hfull, if_neg hempty]
  simp only [hexponent, hfraction, UnpackedFloat.finite.injEq, true_and]
  omega

/-- A number with the least exponent is unpacked as it was packed. -/
theorem unpack_pack_subnormal (s : Sign) {m : Nat} (hm : 0 < m) (hbits : m < 2 ^ 23) :
    UnpackedFloat.unpack Format.binary32
      (UnpackedFloat.pack Format.binary32 (.finite s m (-149) hm)) = .finite s m (-149) hm := by
  have hfits : ¬2 ^ 8 ≤ ((-149 : Int) + 127 + 23).toNat + 1 := by decide
  have hlog : ¬m.log2 + 1 = 24 := by
    have hlt := (Nat.log2_lt hm.ne').mpr hbits
    omega
  have hfraction : (BitVec.ofNat 23 m).toNat = m := by
    rw [BitVec.toNat_ofNat, Nat.mod_eq_of_lt hbits]
  have hempty : BitVec.ofNat 23 m ≠ 0#23 := by
    intro heq
    exact hm.ne' (hfraction.symm.trans (congrArg BitVec.toNat heq))
  unfold UnpackedFloat.pack
  change UnpackedFloat.unpack Format.binary32 (if 2 ^ 8 ≤ ((-149 : Int) + 127 + 23).toNat + 1
    then _ else if m.log2 + 1 = 24 then _ else packComponents _ s 0#8 (BitVec.ofNat 23 m)) = _
  rw [if_neg hfits, if_neg hlog, unpack_packComponents, if_neg (by decide), if_pos rfl, dif_neg hempty]
  simp only [hfraction]

/-- A number of at most half the greatest power of two survives being put together. -/
theorem Bounded.unpack_pack {b : ℚ} {f : UnpackedFloat} (h : Bounded b f)
    (hb : b ≤ 2 ^ (127 : Int)) : (Float32.Model.pack f).unpack = f := by
  change UnpackedFloat.unpack Format.binary32 (UnpackedFloat.pack Format.binary32 f) = f
  cases h with
  | zero s => exact unpack_packedZero
  | finite s m e hm hlt hmin hnormal hle =>
    have hmax := Bounded.exponent_le (.finite s m e hm hlt hmin hnormal hle) hb
    by_cases hbits : 2 ^ 23 ≤ m
    · exact unpack_pack_normal s hm hbits hlt hmin hmax
    · obtain rfl := hnormal.resolve_left hbits
      exact unpack_pack_subnormal s hm (Nat.lt_of_not_le hbits)

/-- Every finite number is taken apart in the form that rounding gives. -/
theorem bounded_unpack {x : Float32.Model} {b : ℚ} {s : Sign} {m : Nat} {e : Int} {hm : 0 < m}
    (h : x.unpack = .finite s m e hm) (hb : (m : ℚ) * 2 ^ e ≤ b) : Bounded b x.unpack := by
  rw [h]
  change UnpackedFloat.unpack Format.binary32 x.toBits.toBitVec = _ at h
  rw [← @packComponents_unpackSign_unpackExponent_unpackMantissa Format.binary32
    x.toBits.toBitVec, unpack_packComponents] at h
  have hfraction : (@unpackMantissa Format.binary32 x.toBits.toBitVec).toNat < 2 ^ 23 :=
    BitVec.isLt _
  split at h
  · split at h <;> cases h
  · split at h
    · split at h
      · cases h
      · cases h
        exact .finite _ _ _ _ (by omega) (by decide) (.inr rfl) hb
    · rename_i hempty
      have hne : (@unpackExponent Format.binary32 x.toBits.toBitVec).toNat ≠ 0 :=
        fun hzero => hempty (BitVec.eq_of_toNat_eq hzero)
      cases h
      exact .finite _ _ _ _ (by omega) (by omega) (.inl (Nat.le_add_right _ _)) hb

end Folio.Number
