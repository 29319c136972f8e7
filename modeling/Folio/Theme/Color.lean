/-!
# Colours

A colour has red, green, blue and opacity channels between zero and one, and a text of hexadecimal
digits: two for each channel, without the opacity when that is full. Reading accepts any number of
leading number signs, single digits for each channel, and a plus sign in place of a leading zero.
-/

namespace Folio

/-- A colour and its opacity. -/
structure Color where
  /-- Red. -/
  r : Float32
  /-- Green. -/
  g : Float32
  /-- Blue. -/
  b : Float32
  /-- Opacity: zero is invisible, one is solid. -/
  a : Float32
  deriving DecidableEq

namespace Color

/-- Solid black. -/
def black : Color := ⟨0, 0, 0, 1⟩

/-- Solid white. -/
def white : Color := ⟨1, 1, 1, 1⟩

/-- The number that a hexadecimal digit stands for. -/
def hexValue? (c : Char) : Option Nat :=
  if '0' ≤ c ∧ c ≤ '9' then some (c.toNat - 48)
  else if 'a' ≤ c ∧ c ≤ 'f' then some (c.toNat - 87)
  else if 'A' ≤ c ∧ c ≤ 'F' then some (c.toNat - 55)
  else none

/-- The byte that two characters stand for; the first may be a plus sign, which counts nothing. -/
def byte? (high low : Char) : Option UInt8 := do
  let h ← if high = '+' then some 0 else hexValue? high
  let l ← hexValue? low
  return UInt8.ofNat (16 * h + l)

/-- The channel that a byte stands for. -/
def ofByte (b : UInt8) : Float32 := b.toFloat32 / 255

/-- The colour of red, green, blue and opacity bytes. -/
def ofBytes (r g b a : UInt8) : Color := ⟨ofByte r, ofByte g, ofByte b, ofByte a⟩

/-- The colour of red, green and blue bytes, solid. -/
def ofSolidBytes (r g b : UInt8) : Color := ⟨ofByte r, ofByte g, ofByte b, 1⟩

/-- The colour of three, six or eight digits. -/
def ofDigits? : List Char → Option Color
  | [r, g, b] => return ofSolidBytes (← byte? r r) (← byte? g g) (← byte? b b)
  | [r, r', g, g', b, b'] => return ofSolidBytes (← byte? r r') (← byte? g g') (← byte? b b')
  | [r, r', g, g', b, b', a, a'] =>
    return ofBytes (← byte? r r') (← byte? g g') (← byte? b b') (← byte? a a')
  | _ => none

/-- The colour that a text stands for. -/
def ofHex? (text : String) : Option Color := ofDigits? (text.toList.dropWhile (· == '#'))

/-- The nearest whole number to a number between zero and 255; a half goes up. -/
def roundByte (x : Float32) : UInt8 :=
  let whole := x.toUInt8
  if 0.5 ≤ x - whole.toFloat32 then whole + 1 else whole

/-- A channel brought between zero and one; not a number stays so. -/
def clamp (x : Float32) : Float32 := if x < 0 then 0 else if 1 < x then 1 else x

/-- The byte of a channel. -/
def toByte (x : Float32) : UInt8 := roundByte (clamp x * 255)

/-- The hexadecimal digit of a number below sixteen. -/
def hexDigit (n : Nat) : Char := if n < 10 then Char.ofNat (48 + n) else Char.ofNat (55 + n)

/-- The two digits of a byte. -/
def byteDigits (b : UInt8) : List Char := [hexDigit (b.toNat / 16), hexDigit (b.toNat % 16)]

/-- The digits of red, green and blue. -/
def solidDigits (c : Color) : List Char :=
  byteDigits (toByte c.r) ++ byteDigits (toByte c.g) ++ byteDigits (toByte c.b)

/-- The text of a colour without its opacity. -/
def solidHex (c : Color) : String := String.ofList ('#' :: solidDigits c)

/-- The text of a colour with its opacity. -/
def fullHex (c : Color) : String :=
  String.ofList ('#' :: (solidDigits c ++ byteDigits (toByte c.a)))

/-- A colour is solid when its opacity is written as the greatest byte. -/
def isSolid (c : Color) : Bool := toByte c.a == 255

/-- The text of a colour: without the opacity when it is solid. -/
def toHex (c : Color) : String := if c.isSolid then c.solidHex else c.fullHex

end Color

end Folio
