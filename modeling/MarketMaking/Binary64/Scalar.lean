import MarketMaking.Scalar
import MarketMaking.Binary64

/-!
# Doubles as scalars

The number system that the program runs on: IEEE double arithmetic, rounding to nearest even.
-/

namespace MarketMaking

/-- Positive infinity. -/
def Binary64.infinity : Float := Float.ofBits 0x7FF0000000000000

/-- The double that stands for an unknown number. -/
def Binary64.unknown : Float := Float.ofBits 0x7FF8000000000000

/-- Double arithmetic. The smaller and the larger of two equal numbers is the second one, which
matters for zeros of different sign only. -/
instance : Scalar Float where
  ofInt := Float.ofInt
  nan := Binary64.unknown
  sqrt := Float.sqrt
  ln := Float.log
  exp := Float.exp
  pow := Float.pow
  lt x y := Float.lt x y
  le x y := Float.le x y
  eq x y := Float.beq x y
  isFinite := Float.isFinite
  isNaN := Float.isNaN
  min x y := if y.isNaN || Float.lt x y then x else y
  max x y := if y.isNaN || Float.lt y x then x else y
  roundEven := Binary64.round .toEven
  roundAway := Binary64.round .up
  toInt := Binary64.toInt64

end MarketMaking
