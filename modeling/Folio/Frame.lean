/-!
# Frames

Rectangles by their left upper corner and their size. Their geometry needs of a length only that
it can be added, subtracted and multiplied and that counts are lengths, so that the same
definitions can be read over binary32 numbers, where every step rounds, and over exact numbers.
-/

namespace Folio

/-- What the geometry of grids needs of lengths. -/
class Length (L : Type) extends Add L, Sub L, Mul L where
  /-- A count as a length. -/
  ofCount : Nat → L

/-- Of a count the nearest binary32 number is taken. -/
instance : Length Float32 where
  ofCount n := (UInt64.ofNat n).toFloat32

/-- Counts are exact. -/
instance : Length Rat where
  ofCount n := n

/-- A rectangle. -/
structure Frame (L : Type) where
  /-- The left edge. -/
  x : L
  /-- The upper edge. -/
  y : L
  /-- The width. -/
  w : L
  /-- The height. -/
  h : L
  deriving DecidableEq

/-- A frame moved to the right and down. -/
def Frame.translate {L : Type} [Length L] (f : Frame L) (x y : L) : Frame L :=
  { f with x := f.x + x, y := f.y + y }

/-- A frame in inches. -/
abbrev Box := Frame Float32

end Folio
