import Folio.Theme.Color

/-!
# Colours as text

A colour that was read from digits has a byte in each channel, and a byte is what its digits are
read as; so the text written for the colour is read as that colour, also where the opacity is left
out because it is full. Main statement: `Color.ofHex?_toHex`.
-/

namespace Folio.Color

/-- A byte is found again in the channel that it stands for. -/
theorem toByte_ofByte (b : UInt8) : toByte (ofByte b) = b := by
  have hbytes : ∀ b : Fin 256, toByte (ofByte (UInt8.ofNat b.val)) = UInt8.ofNat b.val := by
    decide +kernel
  have hb := hbytes ⟨b.toNat, b.toNat_lt⟩
  rwa [UInt8.ofNat_toNat] at hb

/-- A solid colour has the greatest byte as its opacity. -/
theorem ofSolidBytes_eq (r g b : UInt8) : ofSolidBytes r g b = ofBytes r g b 255 := by
  have hfull : ofByte 255 = 1 := by decide +kernel
  unfold ofSolidBytes ofBytes
  rw [hfull]

theorem hexValue?_hexDigit : ∀ n < 16, hexValue? (hexDigit n) = some n := by
  decide

theorem hexDigit_ne : ∀ n < 16, hexDigit n ≠ '+' ∧ hexDigit n ≠ '#' := by
  decide

/-- The two digits of a byte are read as that byte. -/
theorem byte?_hexDigit (b : UInt8) :
    byte? (hexDigit (b.toNat / 16)) (hexDigit (b.toNat % 16)) = some b := by
  have hb := b.toNat_lt
  have hhigh : b.toNat / 16 < 16 := by omega
  have hlow : b.toNat % 16 < 16 := by omega
  unfold byte?
  rw [if_neg (hexDigit_ne _ hhigh).1, hexValue?_hexDigit _ hhigh, hexValue?_hexDigit _ hlow]
  show some (UInt8.ofNat (16 * (b.toNat / 16) + b.toNat % 16)) = some b
  rw [Nat.div_add_mod, UInt8.ofNat_toNat]

/-- The number sign in front of digits is skipped. -/
theorem ofHex?_ofList {b : UInt8} {digits : List Char} :
    ofHex? (String.ofList ('#' :: (byteDigits b ++ digits))) =
      ofDigits? (byteDigits b ++ digits) := by
  have hhigh : b.toNat / 16 < 16 := by
    have hb := b.toNat_lt
    omega
  have hne := (hexDigit_ne _ hhigh).2
  unfold ofHex? byteDigits
  rw [String.toList_ofList]
  simp [hne]

/-- A colour that digits stand for has bytes in its channels. -/
theorem exists_of_ofHex?_eq_some {text : String} {c : Color} (h : ofHex? text = some c) :
    ∃ r g b a, c = ofBytes r g b a := by
  unfold ofHex? ofDigits? at h
  split at h
  · simp only [bind, pure, Option.bind_eq_some_iff] at h
    obtain ⟨r, _, g, _, b, _, h⟩ := h
    exact ⟨r, g, b, 255, (Option.some.inj h).symm.trans (ofSolidBytes_eq r g b)⟩
  · simp only [bind, pure, Option.bind_eq_some_iff] at h
    obtain ⟨r, _, g, _, b, _, h⟩ := h
    exact ⟨r, g, b, 255, (Option.some.inj h).symm.trans (ofSolidBytes_eq r g b)⟩
  · simp only [bind, pure, Option.bind_eq_some_iff] at h
    obtain ⟨r, _, g, _, b, _, a, _, h⟩ := h
    exact ⟨r, g, b, a, (Option.some.inj h).symm⟩
  · cases h

theorem solidDigits_ofBytes (r g b a : UInt8) :
    solidDigits (ofBytes r g b a) = byteDigits r ++ (byteDigits g ++ byteDigits b) := by
  unfold solidDigits ofBytes
  rw [toByte_ofByte, toByte_ofByte, toByte_ofByte, List.append_assoc]

/-- The digits of three bytes are read back as these. -/
theorem ofDigits?_solid (r g b : UInt8) :
    ofDigits? (byteDigits r ++ (byteDigits g ++ byteDigits b)) = some (ofSolidBytes r g b) := by
  simp only [byteDigits, List.cons_append, List.nil_append, ofDigits?, byte?_hexDigit,
    Option.bind_eq_bind, Option.bind_some, Option.pure_def]

/-- The digits of four bytes are read back as these. -/
theorem ofDigits?_full (r g b a : UInt8) :
    ofDigits? (byteDigits r ++ (byteDigits g ++ (byteDigits b ++ byteDigits a))) =
      some (ofBytes r g b a) := by
  simp only [byteDigits, List.cons_append, List.nil_append, ofDigits?, byte?_hexDigit,
    Option.bind_eq_bind, Option.bind_some, Option.pure_def]

/-- The text with the opacity is read as the colour of its bytes. -/
theorem ofHex?_fullHex_ofBytes (r g b a : UInt8) :
    ofHex? (ofBytes r g b a).fullHex = some (ofBytes r g b a) := by
  have hopacity : toByte (ofBytes r g b a).a = a := toByte_ofByte a
  unfold fullHex
  rw [hopacity, solidDigits_ofBytes, List.append_assoc, List.append_assoc, ofHex?_ofList,
    ofDigits?_full]

/-- A full opacity may be left out. -/
theorem ofHex?_solidHex_ofBytes (r g b : UInt8) :
    ofHex? (ofBytes r g b 255).solidHex = some (ofBytes r g b 255) := by
  unfold solidHex
  rw [solidDigits_ofBytes, ofHex?_ofList, ofDigits?_solid, ofSolidBytes_eq]

/-- The text of a colour of bytes is read as that colour. -/
theorem ofHex?_toHex_ofBytes (r g b a : UInt8) :
    ofHex? (ofBytes r g b a).toHex = some (ofBytes r g b a) := by
  have hopacity : toByte (ofBytes r g b a).a = a := toByte_ofByte a
  unfold toHex isSolid
  rw [hopacity]
  split
  · rename_i hfull
    obtain rfl := beq_iff_eq.mp hfull
    exact ofHex?_solidHex_ofBytes r g b
  · exact ofHex?_fullHex_ofBytes r g b a

/-- The text of a colour that some text stands for is read as that colour. -/
theorem ofHex?_toHex {text : String} {c : Color} (h : ofHex? text = some c) :
    ofHex? c.toHex = some c := by
  obtain ⟨r, g, b, a, rfl⟩ := exists_of_ofHex?_eq_some h
  exact ofHex?_toHex_ofBytes r g b a

/-- Some text stands for a colour exactly when the text of the colour does. -/
theorem exists_ofHex?_iff {c : Color} :
    (∃ text, ofHex? text = some c) ↔ ofHex? c.toHex = some c :=
  ⟨fun ⟨_, h⟩ => ofHex?_toHex h, fun h => ⟨_, h⟩⟩

end Folio.Color
