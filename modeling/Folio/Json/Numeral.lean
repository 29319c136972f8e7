import Folio.Number.Narrowing
import Folio.Number.Shortest

/-!
# Numerals

The numbers of a JSON text as they are written: a sign, the digits before and after the point and
an exponent. A numeral without point and exponent that fits 64 bits stands for that integer; any
other is read as a binary64 number. Lengths are binary32 numbers, written with the fewest digits.
-/

namespace Folio.Json

open Folio.Number

/-- A number as it is written. -/
structure Numeral where
  /-- Whether a minus sign stands in front. -/
  negative : Bool
  /-- The digits before the point. -/
  whole : List Char
  /-- The digits after the point; without any there is no point. -/
  fraction : List Char
  /-- The exponent, if one is written. -/
  exponent : Option Int
  deriving DecidableEq

namespace Numeral

/-- A decimal digit. -/
def isDigit (c : Char) : Bool := '0' ≤ c && c ≤ '9'

/-- The number that a digit stands for. -/
def digitValue (c : Char) : Nat := c.toNat - '0'.toNat

/-- The number that a row of digits stands for. -/
def digitsValue (digits : List Char) : Nat := digits.foldl (fun n c => 10 * n + digitValue c) 0

/-- The digits before the point: one or more, and no zero in front of others. -/
def wholeOk : List Char → Bool
  | [] => false
  | [c] => isDigit c
  | c :: rest => isDigit c && c != '0' && rest.all isDigit

/-- Reads what may follow the digits before and after the point: nothing, or an exponent. -/
def exponentOf : List Char → Option (Option Int)
  | [] => some none
  | e :: rest =>
    if e = 'e' ∨ e = 'E' then
      let (negative, digits) :=
        match rest with
        | '-' :: digits => (true, digits)
        | '+' :: digits => (false, digits)
        | digits => (false, digits)
      if digits.isEmpty || !digits.all isDigit then none
      else
        let n : Int := digitsValue digits
        some (some (if negative then -n else n))
    else none

/-- Reads the digits before the point, a point with one or more digits, and an exponent. -/
def magnitudeOf (negative : Bool) (text : List Char) : Option Numeral :=
  let whole := text.takeWhile isDigit
  if wholeOk whole then
    match text.dropWhile isDigit with
    | '.' :: rest =>
      let fraction := rest.takeWhile isDigit
      if fraction.isEmpty then none
      else (exponentOf (rest.dropWhile isDigit)).map fun exponent =>
        ⟨negative, whole, fraction, exponent⟩
    | rest => (exponentOf rest).map fun exponent => ⟨negative, whole, [], exponent⟩
  else none

/-- The numeral that a text is, if it is one. -/
def ofText? : List Char → Option Numeral
  | '-' :: rest => magnitudeOf true rest
  | text => magnitudeOf false text

/-- The exponent as it is written: a letter, a sign and the digits. -/
def exponentText : Option Int → List Char
  | none => []
  | some e =>
    'e' :: (if e < 0 then '-' else '+') :: Nat.toDigits 10 e.natAbs

/-- The text of a numeral. -/
def text (n : Numeral) : List Char :=
  (if n.negative then ['-'] else []) ++ n.whole ++
    (if n.fraction.isEmpty then [] else '.' :: n.fraction) ++ exponentText n.exponent

/-- The numeral of a natural number. -/
def ofNat (n : Nat) : Numeral := ⟨false, Nat.toDigits 10 n, [], none⟩

/-- The numeral of a decimal: positional when its first digit counts a power of ten between the
sixth below and the twelfth above one, and then with a digit after the point; otherwise with an
exponent. -/
def ofDecimal (negative : Bool) (d : Decimal) : Numeral :=
  if -6 ≤ d.leading ∧ d.leading ≤ 12 then
    let (whole, fraction) := d.positional
    ⟨negative, whole, if fraction.isEmpty then ['0'] else fraction, none⟩
  else ⟨negative, d.digits.take 1, d.digits.drop 1, some d.leading⟩

/-- The numeral of a length, which has to be finite. -/
def ofFloat32? (x : Float32) : Option Numeral :=
  match Parts.ofFloat32 x with
  | .finite negative significand exponent =>
    some (ofDecimal negative (shortest .toEven significand exponent))
  | _ => none

/-- The digits taken into a 64-bit number while it can hold them, and the count of those left out.
-/
def absorb (n : Nat) : List Char → Nat × Nat
  | [] => (n, 0)
  | c :: rest =>
    let m := 10 * n + digitValue c
    if m < UInt64.size then absorb m rest else (n, rest.length + 1)

/-- The greatest power of ten that is within the range of binary64 numbers. -/
def powerLimit : Nat := 308

/-- The binary64 number nearest to a power of ten. -/
def power (n : Nat) : Float := Float.ofScientific 1 false n

/-- Divides a binary64 number by the greatest power of ten again and again, until it vanishes. -/
def shrink (x : Float) : Nat → Float
  | 0 => x
  | n + 1 => if x == 0 then x else shrink (x / power powerLimit) n

/-- Scales a binary64 number by a power of ten, in one step where the power is a binary64 number
itself; a number beyond the range has no value. -/
def scale (x : Float) (exponent : Int) : Option Float :=
  if 0 ≤ exponent then
    if exponent ≤ powerLimit then
      let y := x * power exponent.toNat
      if y.isInf then none else some y
    else if x == 0 then some x else none
  else
    let places := (-exponent).toNat
    let passes := (places - 1) / powerLimit
    some (shrink x passes / power (places - powerLimit * passes))

/-- The binary64 number that a numeral is read as: the digits that fit 64 bits, scaled. Of the
digits before the point each one left out counts a power of ten; of those after it each one taken.
-/
def toFloat? (n : Numeral) : Option Float :=
  let (whole, left) := absorb 0 n.whole
  let (significand, unread) := absorb whole n.fraction
  let places : Int := left - ((n.fraction.length - unread : Nat) : Int)
  (scale (UInt64.ofNat significand).toFloat (places + n.exponent.getD 0)).map fun x =>
    if n.negative then -x else x

/-- The natural number that a numeral stands for, if it has neither sign nor point nor exponent and
fits 64 bits. -/
def toNat? (n : Numeral) : Option Nat :=
  let value := digitsValue n.whole
  if n.fraction.isEmpty && n.exponent.isNone && !n.negative && value < UInt64.size then some value
  else none

/-- The negative integer of 64 bits that a numeral stands for, as its magnitude. -/
def toNegative? (n : Numeral) : Option Nat :=
  let value := digitsValue n.whole
  if n.fraction.isEmpty && n.exponent.isNone && n.negative && 0 < value &&
      2 * value ≤ UInt64.size then some value
  else none

/-- The length that a numeral stands for: an integer is rounded once, any other numeral is first
read as a binary64 number. -/
def toFloat32? (n : Numeral) : Option Float32 :=
  match n.toNat?, n.toNegative? with
  | some value, _ => some (UInt64.ofNat value).toFloat32
  | none, some value => some (-(UInt64.ofNat value).toFloat32)
  | none, none => n.toFloat?.map narrow

/-- Whether a numeral has a value. -/
def inRange (n : Numeral) : Bool := n.toNat?.isSome || n.toNegative?.isSome || n.toFloat?.isSome

end Numeral

end Folio.Json
