/-!
# Scalars

The arithmetic that prices, quantities and rates are computed with. Estimation, quoting and order
handling are written against this interface only, so the same definitions run on doubles and can
be read over an exact ordered field or any other number system with these operations.
-/

namespace MarketMaking

/-- Numbers with field operations, the elementary functions of the quoting formulas, comparison,
rounding to integers and a value that stands for an unknown number. -/
class Scalar (R : Type) extends Add R, Sub R, Mul R, Div R, Neg R where
  /-- The number nearest to an integer. -/
  ofInt : Int → R
  /-- The value of an unknown number. -/
  nan : R
  /-- Square root. -/
  sqrt : R → R
  /-- Natural logarithm. -/
  ln : R → R
  /-- Exponential function. -/
  exp : R → R
  /-- The first number raised to the second. -/
  pow : R → R → R
  /-- Strict order; false when either side is unknown. -/
  lt : R → R → Bool
  /-- Order; false when either side is unknown. -/
  le : R → R → Bool
  /-- Equality of value; false when either side is unknown. -/
  eq : R → R → Bool
  /-- Neither unknown nor infinite. -/
  isFinite : R → Bool
  /-- Is this the unknown number? -/
  isNaN : R → Bool
  /-- The smaller number; an unknown operand is dropped in favour of the other one. -/
  min : R → R → R
  /-- The larger number; an unknown operand is dropped in favour of the other one. -/
  max : R → R → R
  /-- The nearest integer, halves going to the even neighbour. -/
  roundEven : R → R
  /-- The nearest integer, halves going away from zero. -/
  roundAway : R → R
  /-- The integer part as a signed 64-bit integer: values beyond the range go to its nearest end
  and the unknown number goes to zero. -/
  toInt : R → Int

namespace Scalar

variable {R : Type} [Scalar R]

/-- The number nearest to a natural number. -/
@[inline] def ofNat (n : Nat) : R := ofInt (Int.ofNat n)

/-- The number zero. -/
@[inline] def zero : R := ofNat 0

/-- The number one. -/
@[inline] def one : R := ofNat 1

/-- The number two. -/
@[inline] def two : R := ofNat 2

/-- One half. -/
@[inline] def half : R := one / two

/-- Is this number greater than zero? -/
@[inline] def isPositive (x : R) : Bool := lt zero x

/-- The number itself when it is finite. -/
@[inline] def finite? (x : R) : Option R := if isFinite x then some x else none

/-- The sum of a list from left to right. It starts from negative zero, which changes no sum, not
even the sign of a sum of zeros. -/
def sum (xs : List R) : R := xs.foldl (· + ·) (-zero)

end Scalar

end MarketMaking
