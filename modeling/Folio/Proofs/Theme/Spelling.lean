import Folio.Proofs.Theme.Hex

/-!
# Spellings of colours

Which texts stand for a colour, and for which one: after the number signs there are three digits, or
two for each channel. A plus sign in front of a digit is taken for a zero, which no text that is
written ever holds; apart from it only digits are read. Every colour has a text, and reading that
text and writing it again changes nothing, whatever the channels are.
-/

namespace Folio.Color

/-- The digits in the order of their values, with letters in upper case. -/
def upperDigits : List Char :=
  ['0', '1', '2', '3', '4', '5', '6', '7', '8', '9', 'A', 'B', 'C', 'D', 'E', 'F']

/-- The digits in the order of their values, with letters in lower case. -/
def lowerDigits : List Char :=
  ['0', '1', '2', '3', '4', '5', '6', '7', '8', '9', 'a', 'b', 'c', 'd', 'e', 'f']

/-- A character is the digit of a value, in upper or in lower case. -/
def IsDigit (c : Char) (v : Nat) : Prop := upperDigits[v]? = some c ∨ lowerDigits[v]? = some c

instance (c : Char) (v : Nat) : Decidable (IsDigit c v) :=
  inferInstanceAs (Decidable (upperDigits[v]? = some c ∨ lowerDigits[v]? = some c))

/-- Two digits that stand for a byte. -/
def IsPair (high low : Char) (b : UInt8) : Prop :=
  ∃ h l, IsDigit high h ∧ IsDigit low l ∧ b.toNat = 16 * h + l

/-- Two characters that are read as a byte: two digits, or a digit behind a plus sign. -/
def ReadAs (high low : Char) (b : UInt8) : Prop :=
  IsPair high low b ∨ high = '+' ∧ IsDigit low b.toNat

theorem IsDigit.lt {c : Char} {v : Nat} (h : IsDigit c v) : v < 16 := by
  rcases h with h | h
  · exact (List.getElem?_eq_some_iff.mp h).1
  · exact (List.getElem?_eq_some_iff.mp h).1

/-- The characters of both rows are read as their positions. -/
theorem hexValue?_of_isDigit {c : Char} {v : Nat} (h : IsDigit c v) : hexValue? c = some v := by
  have hupper : ∀ v < 16, upperDigits[v]?.bind hexValue? = some v := by decide
  have hlower : ∀ v < 16, lowerDigits[v]?.bind hexValue? = some v := by decide
  rcases h with hc | hc
  · have hv := hupper v (IsDigit.lt (.inl hc))
    rwa [hc, Option.bind_some] at hv
  · have hv := hlower v (IsDigit.lt (.inr hc))
    rwa [hc, Option.bind_some] at hv

/-- Only characters of the two rows are read. -/
theorem isDigit_of_hexValue? {c : Char} {v : Nat} (h : hexValue? c = some v) : IsDigit c v := by
  -- the characters between two others are those whose numbers lie between theirs
  have hbetween (low high : Char) (start : Nat) (hc : low ≤ c ∧ c ≤ high)
      (hall : ∀ n < high.toNat + 1, low.toNat ≤ n → IsDigit (Char.ofNat n) (n - start)) :
      IsDigit c (c.toNat - start) := by
    have hdigit := hall c.toNat (Nat.lt_succ_of_le (Char.le_def.mp hc.2)) (Char.le_def.mp hc.1)
    rwa [Char.ofNat_toNat] at hdigit
  unfold hexValue? at h
  split at h
  · rename_i hc
    cases h
    exact hbetween '0' '9' 48 hc (by decide)
  · split at h
    · rename_i hc
      cases h
      exact hbetween 'a' 'f' 87 hc (by decide)
    · split at h
      · rename_i hc
        cases h
        exact hbetween 'A' 'F' 55 hc (by decide)
      · cases h

theorem hexValue?_eq_some_iff {c : Char} {v : Nat} : hexValue? c = some v ↔ IsDigit c v :=
  ⟨isDigit_of_hexValue?, hexValue?_of_isDigit⟩

/-- The byte of two digits is read off their values. -/
theorem ofNat_eq_iff {h l : Nat} (hh : h < 16) (hl : l < 16) {b : UInt8} :
    UInt8.ofNat (16 * h + l) = b ↔ b.toNat = 16 * h + l := by
  constructor
  · rintro rfl
    rw [UInt8.toNat_ofNat']
    omega
  · intro hb
    rw [← hb, UInt8.ofNat_toNat]

theorem byte?_eq_some_iff {high low : Char} {b : UInt8} :
    byte? high low = some b ↔ ReadAs high low b := by
  unfold byte? ReadAs
  by_cases hplus : high = '+'
  · rw [if_pos hplus]
    simp only [bind, pure, Option.bind_eq_some_iff, Option.some.injEq]
    constructor
    · rintro ⟨_, rfl, l, hl, hb⟩
      have hdigit := hexValue?_eq_some_iff.mp hl
      have hvalue := (ofNat_eq_iff (by decide) hdigit.lt).mp hb
      rw [Nat.mul_zero, Nat.zero_add] at hvalue
      exact .inr ⟨hplus, hvalue ▸ hdigit⟩
    · rintro (⟨h, l, hh, -⟩ | ⟨-, hl⟩)
      · rw [hplus, ← hexValue?_eq_some_iff] at hh
        cases hh
      · exact ⟨0, rfl, b.toNat, hexValue?_eq_some_iff.mpr hl,
          (ofNat_eq_iff (by decide) hl.lt).mpr (by omega)⟩
  · rw [if_neg hplus]
    simp only [bind, pure, Option.bind_eq_some_iff, Option.some.injEq]
    constructor
    · rintro ⟨h, hh, l, hl, hb⟩
      rw [hexValue?_eq_some_iff] at hh hl
      exact .inl ⟨h, l, hh, hl, (ofNat_eq_iff hh.lt hl.lt).mp hb⟩
    · rintro (⟨h, l, hh, hl, hb⟩ | ⟨hhigh, -⟩)
      · exact ⟨h, hexValue?_eq_some_iff.mpr hh, l, hexValue?_eq_some_iff.mpr hl,
          (ofNat_eq_iff hh.lt hl.lt).mpr hb⟩
      · exact absurd hhigh hplus

/-- The characters of a text behind its leading number signs. -/
def unsigned (text : String) : List Char := text.toList.dropWhile (· == '#')

/-- Characters spell a colour, when `P` says which two characters stand for which byte: each channel
is its byte divided by 255, a channel of one digit has that digit twice, and the opacity is full
unless it is given. -/
inductive Spells (P : Char → Char → UInt8 → Prop) : List Char → Color → Prop where
  | short {r g b : Char} {x y z : UInt8} (hr : P r r x) (hg : P g g y) (hb : P b b z) :
    Spells P [r, g, b] ⟨x.toFloat32 / 255, y.toFloat32 / 255, z.toFloat32 / 255, 1⟩
  | solid {r r' g g' b b' : Char} {x y z : UInt8} (hr : P r r' x) (hg : P g g' y)
      (hb : P b b' z) :
    Spells P [r, r', g, g', b, b'] ⟨x.toFloat32 / 255, y.toFloat32 / 255, z.toFloat32 / 255, 1⟩
  | full {r r' g g' b b' a a' : Char} {x y z o : UInt8} (hr : P r r' x) (hg : P g g' y)
      (hb : P b b' z) (ha : P a a' o) :
    Spells P [r, r', g, g', b, b', a, a']
      ⟨x.toFloat32 / 255, y.toFloat32 / 255, z.toFloat32 / 255, o.toFloat32 / 255⟩

/-- What is spelled depends only on how the characters in it are read. -/
theorem Spells.imp {P Q : Char → Char → UInt8 → Prop} {digits : List Char} {c : Color}
    (h : Spells P digits c) (hPQ : ∀ high ∈ digits, ∀ low b, P high low b → Q high low b) :
    Spells Q digits c := by
  cases h with
  | short hr hg hb =>
    exact .short (hPQ _ (by simp) _ _ hr) (hPQ _ (by simp) _ _ hg) (hPQ _ (by simp) _ _ hb)
  | solid hr hg hb =>
    exact .solid (hPQ _ (by simp) _ _ hr) (hPQ _ (by simp) _ _ hg) (hPQ _ (by simp) _ _ hb)
  | full hr hg hb ha =>
    exact .full (hPQ _ (by simp) _ _ hr) (hPQ _ (by simp) _ _ hg) (hPQ _ (by simp) _ _ hb)
      (hPQ _ (by simp) _ _ ha)

/-- Digits are read as a colour exactly when they spell it. -/
theorem ofDigits?_eq_some_iff {digits : List Char} {c : Color} :
    ofDigits? digits = some c ↔ Spells ReadAs digits c := by
  constructor
  · intro h
    unfold ofDigits? at h
    split at h
    · simp only [bind, pure, Option.bind_eq_some_iff, byte?_eq_some_iff] at h
      obtain ⟨x, hr, y, hg, z, hb, h⟩ := h
      cases h
      exact .short hr hg hb
    · simp only [bind, pure, Option.bind_eq_some_iff, byte?_eq_some_iff] at h
      obtain ⟨x, hr, y, hg, z, hb, h⟩ := h
      cases h
      exact .solid hr hg hb
    · simp only [bind, pure, Option.bind_eq_some_iff, byte?_eq_some_iff] at h
      obtain ⟨x, hr, y, hg, z, hb, o, ha, h⟩ := h
      cases h
      exact .full hr hg hb ha
    · cases h
  · intro h
    cases h with
    | short hr hg hb =>
      rw [← byte?_eq_some_iff] at hr hg hb
      simp only [ofDigits?, hr, hg, hb]
      rfl
    | solid hr hg hb =>
      rw [← byte?_eq_some_iff] at hr hg hb
      simp only [ofDigits?, hr, hg, hb]
      rfl
    | full hr hg hb ha =>
      rw [← byte?_eq_some_iff] at hr hg hb ha
      simp only [ofDigits?, hr, hg, hb, ha]
      rfl

/-- Without plus signs, digits are all that is read. -/
theorem spells_readAs_iff {digits : List Char} {c : Color} (h : '+' ∉ digits) :
    Spells ReadAs digits c ↔ Spells IsPair digits c := by
  refine ⟨fun hc => hc.imp fun high hhigh low b hb => ?_, fun hc => hc.imp fun _ _ _ _ => .inl⟩
  exact hb.resolve_right fun hplus => h (hplus.1 ▸ hhigh)

/-- A text stands for a colour exactly if it spells that colour behind its number signs, where each
two characters are digits, or a plus sign and a digit. So of the texts without a plus sign, exactly
those of three, six or eight digits stand for a colour. -/
theorem ofHex?_eq_some_iff (text : String) (c : Color) :
    (ofHex? text = some c ↔ Spells ReadAs (unsigned text) c) ∧
      ('+' ∉ text.toList → (ofHex? text = some c ↔ Spells IsPair (unsigned text) c)) := by
  have hread : ofHex? text = some c ↔ Spells ReadAs (unsigned text) c := ofDigits?_eq_some_iff
  refine ⟨hread, fun hplus => hread.trans (spells_readAs_iff fun hmem => hplus ?_)⟩
  exact (List.dropWhile_sublist _).subset hmem

/-- Three digits, in upper and in lower case, spell an orange. -/
theorem ofHex?_eq_some_iff_orange :
    '+' ∉ "##Fa0".toList ∧
      ofHex? "##Fa0" = some ⟨(255 : UInt8).toFloat32 / 255, (170 : UInt8).toFloat32 / 255,
        (0 : UInt8).toFloat32 / 255, 1⟩ := by
  have hplus : '+' ∉ "##Fa0".toList := by decide
  have hspelled : unsigned "##Fa0" = ['F', 'a', '0'] := by decide
  refine ⟨hplus, ((ofHex?_eq_some_iff _ _).2 hplus).mpr ?_⟩
  rw [hspelled]
  exact .short ⟨15, 15, by decide⟩ ⟨10, 10, by decide⟩ ⟨0, 0, by decide⟩

/-- Not only digits are read: three plus signs stand in front of the digits of this text. -/
theorem not_forall_ofHex?_eq_some_iff_digits :
    ¬∀ (text : String) (c : Color), ofHex? text = some c ↔ Spells IsPair (unsigned text) c := by
  intro hall
  have hread : ofHex? "#+1+2+3" = some (ofSolidBytes 1 2 3) := by decide +kernel
  have hspelled := (hall _ _).mp hread
  rw [show unsigned "#+1+2+3" = ['+', '1', '+', '2', '+', '3'] by decide] at hspelled
  generalize ofSolidBytes 1 2 3 = c at hspelled
  cases hspelled with
  | solid hr _ _ =>
    obtain ⟨h, _, hplus, -⟩ := hr
    have hvalue := hexValue?_of_isDigit hplus
    cases hvalue

/-- The text of a colour depends on the bytes of its channels alone. -/
theorem toHex_ofBytes_toByte (c : Color) :
    (ofBytes (toByte c.r) (toByte c.g) (toByte c.b) (toByte c.a)).toHex = c.toHex := by
  unfold toHex isSolid solidHex fullHex solidDigits ofBytes
  simp only [toByte_ofByte]

/-- An opacity is full only if its byte is the greatest. -/
theorem ofByte_eq_one_iff {b : UInt8} : ofByte b = 1 ↔ b = 255 := by
  have hfull : ofByte 255 = 1 := by decide +kernel
  constructor
  · intro hb
    rw [← toByte_ofByte b, hb, ← hfull, toByte_ofByte]
  · rintro rfl
    exact hfull

/-- The text written for a colour that was read is read as that colour, with two digits for each of
three channels if it is solid and of four if it is not. The text written for any colour at all is
read as one, and written for that again. -/
theorem toHex_faithful :
    (∀ text c, ofHex? text = some c →
        ofHex? c.toHex = some c ∧ c.toHex = if c.a = 1 then c.solidHex else c.fullHex) ∧
      ∀ c : Color, ∃ c', ofHex? c.toHex = some c' ∧ c'.toHex = c.toHex := by
  constructor
  · intro text c h
    refine ⟨ofHex?_toHex h, ?_⟩
    obtain ⟨r, g, b, a, rfl⟩ := exists_of_ofHex?_eq_some h
    have hopacity : toByte (ofBytes r g b a).a = a := toByte_ofByte a
    have hsolid : (ofBytes r g b a).isSolid = true ↔ (ofBytes r g b a).a = 1 := by
      unfold isSolid
      rw [hopacity, beq_iff_eq]
      exact ofByte_eq_one_iff.symm
    unfold toHex
    simp only [hsolid]
  · intro c
    have hread := ofHex?_toHex_ofBytes (toByte c.r) (toByte c.g) (toByte c.b) (toByte c.a)
    rw [toHex_ofBytes_toByte] at hread
    exact ⟨_, hread, toHex_ofBytes_toByte c⟩

/-- What is written for a translucent teal is read again, and so is what is written for channels
that are no number, infinite and below zero. -/
theorem toHex_faithful_teal :
    (∃ c, ofHex? "02809080" = some c ∧ c.toHex = "#02809080" ∧ ofHex? c.toHex = some c) ∧
      ∃ c', ofHex? (toHex ⟨0 / 0, 1 / 0, -1, 0.5⟩) = some c' ∧ c'.toHex = "#00FF0080" := by
  have hteal : ofHex? "02809080" = some (ofBytes 2 128 144 128) := by decide +kernel
  have hbytes : (ofBytes 2 128 144 128).toHex = "#02809080" := by decide +kernel
  have hstray : toHex ⟨0 / 0, 1 / 0, -1, 0.5⟩ = "#00FF0080" := by decide +kernel
  obtain ⟨c', hread, hwritten⟩ := toHex_faithful.2 ⟨0 / 0, 1 / 0, -1, 0.5⟩
  exact ⟨⟨_, hteal, hbytes, (toHex_faithful.1 _ _ hteal).1⟩, c', hread, hwritten.trans hstray⟩

end Folio.Color
