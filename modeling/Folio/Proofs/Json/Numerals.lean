import Folio.Json.Numeral
import Folio.Proofs.Number.Shortest

/-!
# Numerals as they are written

A numeral whose digits before the point have no zero in front, and whose other digits are digits, is
what its text is read as. The numerals of natural numbers and of lengths are of this kind, and every
finite length has one.
-/

namespace Folio.Json.Numeral

open Folio.Number

theorem isDigit_of_isDigit {c : Char} (h : c.isDigit = true) : isDigit c = true := by
  simpa [isDigit, Char.isDigit, Char.le_def] using h

/-- The decimal digits of a number are digits. -/
theorem isDigit_of_mem_toDigits {n : Nat} {c : Char} (h : c ∈ Nat.toDigits 10 n) :
    isDigit c = true :=
  isDigit_of_isDigit (Nat.isDigit_of_mem_toDigits (by decide) (Nat.le_refl 10) h)

/-- A number is the value of its digits. -/
theorem digitsValue_toDigits (n : Nat) : digitsValue (Nat.toDigits 10 n) = n :=
  Nat.ofDigitChars_ten_toDigits

/-- Digits end where no digit follows. -/
theorem takeWhile_digits {digits rest : List Char} (h : ∀ c ∈ digits, isDigit c = true)
    (hrest : ∀ c ∈ rest.head?, isDigit c = false) :
    (digits ++ rest).takeWhile isDigit = digits ∧ (digits ++ rest).dropWhile isDigit = rest := by
  rw [List.takeWhile_append_of_pos h, List.dropWhile_append_of_pos h]
  cases rest with
  | nil => exact ⟨List.append_nil _, rfl⟩
  | cons c rest =>
    have hc := hrest c rfl
    simp [hc]

/-- The digits are digits, and no zero stands in front of others. -/
structure WellFormed (n : Numeral) : Prop where
  whole : wholeOk n.whole = true
  fraction : ∀ c ∈ n.fraction, isDigit c = true

/-- A whole part consists of digits. -/
theorem isDigit_of_wholeOk {digits : List Char} (h : wholeOk digits = true) :
    ∀ c ∈ digits, isDigit c = true := by
  match digits with
  | [] => cases h
  | [c] => simpa [wholeOk] using h
  | c :: c' :: rest =>
    simp only [wholeOk, Bool.and_eq_true, List.all_eq_true] at h
    exact List.forall_mem_cons.mpr ⟨h.1.1, h.2⟩

/-- An exponent is read back from its text. -/
theorem exponentOf_exponentText (e : Option Int) : exponentOf (exponentText e) = some e := by
  cases e with
  | none => rfl
  | some e =>
    have hall : (Nat.toDigits 10 e.natAbs).all isDigit = true :=
      List.all_eq_true.mpr fun c => isDigit_of_mem_toDigits
    have hne : (Nat.toDigits 10 e.natAbs).isEmpty = false := by
      simp [Nat.toDigits_ne_nil]
    unfold exponentOf exponentText
    by_cases he : e < 0
    · have hback : -(e.natAbs : Int) = e := by omega
      simp only [he, hall, hne, digitsValue_toDigits, hback, true_or, if_true, Bool.not_true,
        Bool.or_self, Bool.false_eq_true, if_false]
    · have hback : (e.natAbs : Int) = e := by omega
      simp only [he, hall, hne, digitsValue_toDigits, hback, true_or, if_true, Bool.not_true,
        Bool.or_self, Bool.false_eq_true, if_false]

/-- No text of an exponent begins with a digit. -/
theorem isDigit_of_mem_exponentText {e : Option Int} {c : Char}
    (h : c ∈ (exponentText e).head?) : isDigit c = false := by
  cases e with
  | none => cases h
  | some e =>
    cases h
    rfl

variable {n : Numeral}

/-- Whole digits, a fraction and an exponent are told apart. -/
theorem WellFormed.magnitudeOf_eq (h : n.WellFormed) :
    magnitudeOf n.negative (n.whole ++ ((if n.fraction.isEmpty then [] else '.' :: n.fraction) ++
      exponentText n.exponent)) = some n := by
  obtain ⟨negative, whole, fraction, exponent⟩ := n
  obtain ⟨hwhole, hfraction⟩ := h
  dsimp only at hwhole hfraction ⊢
  have hexponent := exponentOf_exponentText exponent
  have hend := fun c => isDigit_of_mem_exponentText (e := exponent) (c := c)
  unfold magnitudeOf
  cases fraction with
  | nil =>
    obtain ⟨htake, hdrop⟩ := takeWhile_digits (isDigit_of_wholeOk hwhole) hend
    rw [List.isEmpty_nil, if_pos rfl, List.nil_append, htake, hdrop, if_pos hwhole]
    cases exponent with
    | none => rfl
    | some e => exact congrArg (Option.map _) hexponent
  | cons c fraction =>
    have hpoint : ∀ d ∈ ('.' :: (c :: fraction ++ exponentText exponent)).head?,
        isDigit d = false := by
      intro d hd
      cases hd
      rfl
    obtain ⟨htake, hdrop⟩ := takeWhile_digits (isDigit_of_wholeOk hwhole) hpoint
    obtain ⟨htake', hdrop'⟩ := takeWhile_digits hfraction hend
    rw [List.isEmpty_cons, if_neg Bool.false_ne_true, List.cons_append, htake, hdrop, if_pos hwhole]
    show (if ((c :: fraction ++ exponentText exponent).takeWhile isDigit).isEmpty then none
      else _) = _
    rw [htake', hdrop', hexponent]
    rfl

/-- The text of a well-formed numeral is read as that numeral. -/
theorem WellFormed.ofText?_text (h : n.WellFormed) : ofText? n.text = some n := by
  have hmagnitude := h.magnitudeOf_eq
  unfold text
  rw [List.append_assoc, List.append_assoc]
  cases hnegative : n.negative with
  | true =>
    rw [hnegative] at hmagnitude
    exact hmagnitude
  | false =>
    rw [hnegative] at hmagnitude
    rw [if_neg Bool.false_ne_true, List.nil_append, ← hmagnitude]
    -- the first digit is no sign
    cases hwhole : n.whole with
    | nil =>
      have hok := h.whole
      rw [hwhole] at hok
      cases hok
    | cons c rest =>
      have hc := isDigit_of_wholeOk h.whole c (by rw [hwhole]; exact List.mem_cons_self)
      rw [List.cons_append, ofText?]
      intro _ hsign
      cases hsign
      cases hc

/-- Digits make a whole part unless a zero stands before others. -/
theorem wholeOk_cons {c : Char} {rest : List Char} (hc : isDigit c = true)
    (hrest : ∀ d ∈ rest, isDigit d = true) (hzero : c = '0' → rest = []) :
    wholeOk (c :: rest) = true := by
  cases rest with
  | nil => exact hc
  | cons d rest =>
    have hne : c ≠ '0' := fun hc => nomatch hzero hc
    simp only [wholeOk, Bool.and_eq_true, List.all_eq_true]
    exact ⟨⟨hc, bne_iff_ne.mpr hne⟩, hrest⟩

/-- A whole number is a numeral. -/
theorem wellFormed_ofNat (n : Nat) : (ofNat n).WellFormed where
  whole := by
    by_cases hn : n = 0
    · subst hn
      rfl
    · obtain ⟨c, rest, hdigits, hc⟩ := exists_toDigits_eq_cons (Nat.pos_of_ne_zero hn)
      have hall : ∀ d ∈ c :: rest, isDigit d = true := by
        rw [← hdigits]
        exact fun d => isDigit_of_mem_toDigits
      obtain ⟨hdigit, hrest⟩ := List.forall_mem_cons.mp hall
      show wholeOk (Nat.toDigits 10 n) = true
      rw [hdigits]
      exact wholeOk_cons hdigit hrest fun hzero => absurd hzero hc
  fraction := List.forall_mem_nil _

/-- A whole number of at most 64 bits is read back from its numeral. -/
theorem toNat?_ofNat {n : Nat} (h : n < UInt64.size) : (ofNat n).toNat? = some n := by
  simp [toNat?, ofNat, digitsValue_toDigits, h]

/-- The numeral of a whole number of at most 64 bits is in range. -/
theorem inRange_ofNat {n : Nat} (h : n < UInt64.size) : (ofNat n).inRange = true := by
  simp [inRange, toNat?_ofNat h]

/-- A numeral that is read as a length has a value. -/
theorem inRange_of_toFloat32? {n : Numeral} {x : Float32} (h : n.toFloat32? = some x) :
    n.inRange = true := by
  unfold inRange
  unfold toFloat32? at h
  split at h
  · rename_i hnat
    simp [hnat]
  · rename_i hnegative
    simp [hnegative]
  · obtain ⟨y, hy, _⟩ := Option.map_eq_some_iff.mp h
    simp [hy]

theorem isDigit_of_mem_replicate {n : Nat} {c : Char} (h : c ∈ List.replicate n '0') :
    isDigit c = true := by
  rw [List.eq_of_mem_replicate h]
  rfl

/-- The digits of a proper decimal before the point. -/
theorem wholeOk_positional {d : Decimal} (h : d.Proper) : wholeOk d.positional.1 = true := by
  obtain ⟨hdigits, c, rest, heq, hzero⟩ := h
  rw [heq, List.forall_mem_cons] at hdigits
  obtain ⟨hc, hrest⟩ := hdigits
  unfold Decimal.positional
  dsimp only
  split
  · rfl
  · rw [heq, List.take_succ_cons, List.cons_append]
    refine wholeOk_cons (isDigit_of_isDigit hc) (List.forall_mem_append.mpr ⟨?_, ?_⟩) fun hc => ?_
    · exact fun d hd => isDigit_of_isDigit (hrest d (List.mem_of_mem_take hd))
    · exact fun d => isDigit_of_mem_replicate
    · obtain ⟨rfl, hleading⟩ := hzero hc
      rw [hleading]
      rfl

/-- The digits of a proper decimal after the point. -/
theorem isDigit_of_mem_positional {d : Decimal} (h : d.Proper) :
    ∀ c ∈ d.positional.2, isDigit c = true := by
  unfold Decimal.positional
  dsimp only
  split
  · refine List.forall_mem_append.mpr ⟨fun c => isDigit_of_mem_replicate, ?_⟩
    exact fun c hc => isDigit_of_isDigit (h.digits c hc)
  · exact fun c hc => isDigit_of_isDigit (h.digits c (List.mem_of_mem_drop hc))

/-- A proper decimal is written well, with an exponent or without. -/
theorem wellFormed_ofDecimal (negative : Bool) {d : Decimal} (h : d.Proper) :
    (ofDecimal negative d).WellFormed := by
  unfold ofDecimal
  split
  · refine ⟨wholeOk_positional h, fun c hc => ?_⟩
    dsimp only at hc
    split at hc
    · obtain rfl := List.mem_singleton.mp hc
      rfl
    · exact isDigit_of_mem_positional h c hc
  · obtain ⟨c, rest, heq, _⟩ := h.head
    refine ⟨?_, fun c hc => isDigit_of_isDigit (h.digits c (List.mem_of_mem_drop hc))⟩
    rw [heq]
    exact isDigit_of_isDigit (h.digits c (heq ▸ List.mem_cons_self))

/-- The numeral of a length is well formed. -/
theorem wellFormed_of_ofFloat32? {x : Float32} {n : Numeral} (h : ofFloat32? x = some n) :
    n.WellFormed := by
  unfold ofFloat32? at h
  split at h
  · cases h
    exact wellFormed_ofDecimal _ (proper_shortest _ _ _)
  · cases h

/-- A finite length has a numeral. -/
theorem exists_ofFloat32?_eq {x : Float32} (h : x.isFinite = true) :
    ∃ n, ofFloat32? x = some n := by
  obtain ⟨_, _, _, hparts⟩ := Parts.exists_ofFloat32_eq_finite h
  unfold ofFloat32?
  rw [hparts]
  exact ⟨_, rfl⟩

end Folio.Json.Numeral
