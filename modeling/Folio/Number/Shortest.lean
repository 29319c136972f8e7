/-!
# Shortest decimals

The decimal that stands for a binary32 number when it is written: of the grids of multiples of a
power of ten, the coarsest that has a point among the reals rounding to the number, and on that
grid the point nearest to it. All of it is computed in exact integers.
-/

namespace Folio.Number

/-- What a binary32 number is: not a number, an infinity, or a sign with
`significand · 2 ^ exponent`. -/
inductive Parts where
  | notANumber
  | infinite (negative : Bool)
  | finite (negative : Bool) (significand : Nat) (exponent : Int)
  deriving DecidableEq

/-- The parts that the sign, exponent and fraction fields of a binary32 number encode. -/
def Parts.ofFloat32 (x : Float32) : Parts :=
  let bits := x.toBits.toNat
  let negative := bits / Nat.pow 2 31 == 1
  let exponent : Nat := bits / Nat.pow 2 23 % Nat.pow 2 8
  let fraction : Nat := bits % Nat.pow 2 23
  if exponent = 255 then
    if fraction = 0 then .infinite negative else .notANumber
  else if exponent = 0 then .finite negative fraction (-149)
  else .finite negative (Nat.pow 2 23 + fraction) ((exponent : Int) - 150)

/-- The reals that round to one binary32 number, as counts of `2 ^ scale`. -/
structure RoundingInterval where
  /-- The number itself. -/
  value : Nat
  /-- The midpoint below it. -/
  low : Nat
  /-- The midpoint above it. -/
  high : Nat
  /-- The exponent of the unit. -/
  scale : Int
  /-- Whether both midpoints round to the number. -/
  closed : Bool

/-- The neighbour below a power of two is half as far as the one above, except at the least
exponent; midpoints round to the even significand. -/
def RoundingInterval.ofParts (significand : Nat) (exponent : Int) : RoundingInterval where
  value := 4 * significand
  low := 4 * significand - (if significand = Nat.pow 2 23 ∧ -149 < exponent then 1 else 2)
  high := 4 * significand + 2
  scale := exponent - 2
  closed := significand % 2 == 0

/-- Which of two decimals equally near to a number is written: the one that ends in an even digit,
or the larger in magnitude. -/
inductive Tie where
  | toEven
  | away
  deriving DecidableEq

/-- Whether `point · gridUnit` lies among the reals of the interval, whose unit is `unit`. -/
def RoundingInterval.holds (interval : RoundingInterval) (unit gridUnit point : Nat) : Bool :=
  let p := point * gridUnit
  let low := interval.low * unit
  let high := interval.high * unit
  (low < p && p < high) || (interval.closed && (low == p || p == high))

/-- The point of the grid of multiples of `10 ^ grid` that is nearest to the number, when the grid
has a point among the reals rounding to it. -/
def RoundingInterval.nearest? (tie : Tie) (interval : RoundingInterval) (grid : Int) : Option Nat :=
  let unit := Nat.pow 2 interval.scale.toNat * Nat.pow 10 (-grid).toNat
  let gridUnit := Nat.pow 10 grid.toNat * Nat.pow 2 (-interval.scale).toNat
  let below := interval.value * unit / gridUnit
  let excess := interval.value * unit - below * gridUnit
  match interval.holds unit gridUnit below, interval.holds unit gridUnit (below + 1) with
  | false, false => none
  | true, false => some below
  | false, true => some (below + 1)
  | true, true =>
    if 2 * excess < gridUnit then some below
    else if gridUnit < 2 * excess then some (below + 1)
    else match tie with
      | .toEven => some (if below % 2 = 0 then below else below + 1)
      | .away => some (below + 1)

/-- A positive decimal: its digits, the first of them standing for a multiple of `10 ^ leading`. -/
structure Decimal where
  /-- The digits, most significant first. -/
  digits : List Char
  /-- The power of ten that the first digit counts. -/
  leading : Int
  deriving DecidableEq

/-- The decimal `point · 10 ^ grid`. -/
def Decimal.ofGridPoint (point : Nat) (grid : Int) : Decimal :=
  let digits := Nat.toDigits 10 point
  ⟨digits, grid + (digits.length - 1 : Nat)⟩

/-- The exponents of the grids that binary32 numbers need, from coarse to fine. -/
def grids : List Int := (List.range 84).map fun (i : Nat) => 38 - (i : Int)

/-- The shortest decimal that rounds to `significand · 2 ^ exponent`, and of several the nearest. -/
def shortest (tie : Tie) (significand : Nat) (exponent : Int) : Decimal :=
  if significand = 0 then ⟨['0'], 0⟩
  else
    let interval := RoundingInterval.ofParts significand exponent
    let hits := grids.findSome? fun grid =>
      (interval.nearest? tie grid).map fun point => Decimal.ofGridPoint point grid
    hits.getD ⟨['0'], 0⟩

/-- The digits before and after the point when a decimal is written without an exponent. -/
def Decimal.positional (d : Decimal) : List Char × List Char :=
  if d.leading < 0 then (['0'], List.replicate (-d.leading - 1).toNat '0' ++ d.digits)
  else
    let width := d.leading.toNat + 1
    (d.digits.take width ++ List.replicate (width - d.digits.length) '0', d.digits.drop width)

/-- A number in running text: shortest digits, never an exponent, and no point in a whole number. -/
def plainText (x : Float32) : String :=
  match Parts.ofFloat32 x with
  | .notANumber => "NaN"
  | .infinite negative => if negative then "-inf" else "inf"
  | .finite negative significand exponent =>
    let (whole, fraction) := (shortest .away significand exponent).positional
    let sign := if negative then "-" else ""
    let point := if fraction.isEmpty then [] else '.' :: fraction
    sign ++ String.ofList (whole ++ point)

end Folio.Number
