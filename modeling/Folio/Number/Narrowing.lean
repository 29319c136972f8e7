/-!
# Narrowing

The binary32 number nearest to a binary64 number; of two that are equally near the one with an even
significand. All of it is computed in exact integers: the significand is divided by the spacing of
binary32 numbers at its size, and a quotient that overflows carries into the exponent by itself.
-/

namespace Folio.Number

/-- The whole number nearest to a quotient; a half goes to the even neighbour. -/
def roundedQuotient (num den : Nat) : Nat :=
  let below := num / den
  let excess := num % den
  if 2 * excess < den then below
  else if den < 2 * excess then below + 1
  else if below % 2 = 0 then below else below + 1

/-- The exponent of the spacing of binary32 numbers at the size of `significand · 2 ^ exponent`. -/
def spacing (significand : Nat) (exponent : Int) : Int :=
  max (exponent + Nat.log2 significand - 23) (-149)

/-- The encoding of the magnitude of the nearest binary32 number, or of infinity when that is
nearer. -/
def nearestMagnitude (significand : Nat) (exponent : Int) : Nat :=
  let unit := spacing significand exponent
  let count := roundedQuotient (significand * Nat.pow 2 (exponent - unit).toNat)
    (Nat.pow 2 (unit - exponent).toNat)
  min ((unit + 149).toNat * Nat.pow 2 23 + count) (255 * Nat.pow 2 23)

/-- The nearest binary32 number. -/
def narrow (x : Float) : Float32 :=
  let bits := x.toBits.toNat
  let sign := bits / Nat.pow 2 63 * Nat.pow 2 31
  let exponent : Nat := bits / Nat.pow 2 52 % Nat.pow 2 11
  let fraction : Nat := bits % Nat.pow 2 52
  let magnitude :=
    if exponent = 2047 then
      if fraction = 0 then 255 * Nat.pow 2 23 else 255 * Nat.pow 2 23 + Nat.pow 2 22
    else if exponent = 0 then nearestMagnitude fraction (-1074)
    else nearestMagnitude (Nat.pow 2 52 + fraction) ((exponent : Int) - 1075)
  Float32.ofBits (UInt32.ofNat (sign + magnitude))

end Folio.Number
