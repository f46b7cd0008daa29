import MarketMaking.Power
import MarketMaking.Rounding

/-!
# Doubles taken apart

A double is unknown, infinite, or a sign with a value `mantissa * 2 ^ exponent`. All printing of
doubles and all rounding to integers works on these parts in exact integer arithmetic.
-/

namespace MarketMaking

/-- The parts of a double. A finite one has the absolute value `mantissa * 2 ^ exponent`; both
zeros are finite with mantissa zero. -/
inductive Binary64 where
  | nan
  | infinite (negative : Bool)
  | finite (negative : Bool) (mantissa : Nat) (exponent : Int)
  deriving DecidableEq, Repr

namespace Binary64

/-- The exponent of the smallest positive double. -/
def minExponent : Int := -1074

/-- Read the sign, the exponent field and the fraction field. A zero exponent field marks a value
below the normal range, without a leading mantissa bit. -/
def ofFloat (x : Float) : Binary64 :=
  let bits := x.toBits
  let negative := bits >>> 63 == 1
  let field := ((bits >>> 52) &&& 0x7FF).toNat
  let fraction := (bits &&& 0xFFFFFFFFFFFFF).toNat
  if field = 2047 then
    if fraction = 0 then .infinite negative else .nan
  else if field = 0 then .finite negative fraction minExponent
  else .finite negative (fraction + pow2 52) (minExponent + (field - 1))

/-- A fraction of natural numbers equal to `mantissa * 2 ^ exponent`. -/
def ratio (mantissa : Nat) : (exponent : Int) → Nat × Nat
  | .ofNat e => (mantissa * pow2 e, 1)
  | .negSucc e => (mantissa, pow2 (e + 1))

/-- Round a double to an integer, keeping its sign when the integer is zero. Doubles with an
exponent of zero or more are integers already. -/
def round (tie : Tie) (x : Float) : Float :=
  match ofFloat x with
  | .finite negative mantissa (.negSucc e) =>
      let n := Float.ofNat (roundDiv tie mantissa (pow2 (e + 1)))
      if negative then -n else n
  | _ => x

/-- The largest signed 64-bit integer. -/
def maxInt64 : Int := pow2 63 - 1

/-- The smallest signed 64-bit integer. -/
def minInt64 : Int := -pow2 63

/-- The integer part of the absolute value; zero when there is none. -/
def whole (x : Float) : Nat :=
  match ofFloat x with
  | .finite _ mantissa exponent =>
      let (num, den) := ratio mantissa exponent
      num / den
  | _ => 0

/-- The integer part as a signed 64-bit integer, with values out of range going to the nearest end
and the unknown number to zero. -/
def toInt64 (x : Float) : Int :=
  match ofFloat x with
  | .nan => 0
  | .infinite negative => if negative then minInt64 else maxInt64
  | .finite negative .. =>
      let n : Int := Int.ofNat (whole x)
      max minInt64 (min maxInt64 (if negative then -n else n))

end Binary64

end MarketMaking
