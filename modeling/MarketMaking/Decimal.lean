import MarketMaking.Power
import MarketMaking.Rounding

/-!
# Decimals

Exact decimal expansion of a quotient of natural numbers: the position of its leading digit, its
first digits correctly rounded, and its layout as text.
-/

namespace MarketMaking

/-- The number `digits * 10 ^ exponent`. -/
structure Decimal where
  digits : Nat
  exponent : Int
  deriving DecidableEq, Repr

namespace Decimal

/-- The decimal digits of a natural number, most significant first; zero has one digit. -/
def digitChars (n : Nat) : List Char := Nat.toDigits 10 n

/-- The number of decimal digits of a natural number. -/
def digitCount (n : Nat) : Nat := (digitChars n).length

/-- The number of the given decimal digits read from left to right. -/
def ofDigitChars (cs : List Char) : Nat := Nat.ofDigitChars 10 cs 0

/-- The digits of a natural number read back as that number. -/
theorem ofDigitChars_digitChars (n : Nat) : ofDigitChars (digitChars n) = n :=
  Nat.ofDigitChars_toDigits (by decide) (by decide)

/-- The digits of a natural number are digits. -/
theorem isDigit_of_mem_digitChars {n : Nat} {c : Char} (h : c ∈ digitChars n) :
    c.isDigit = true :=
  Nat.isDigit_of_mem_toDigits (by decide) (by decide) h

/-- The exponent `e` with `10 ^ e ≤ num / den < 10 ^ (e + 1)`, for positive arguments. -/
def leadingExponent (num den : Nat) : Int :=
  if den ≤ num then (digitCount (num / den) : Int) - 1
  else -(digitCount ((den - 1) / num) : Int)

/-- The quotient `num / den` divided by `10 ^ exponent`, as a quotient again. -/
def scaleDown (num den : Nat) : (exponent : Int) → Nat × Nat
  | .ofNat e => (num, den * pow10 e)
  | .negSucc e => (num * pow10 (e + 1), den)

/-- The first `count` significant digits of a positive quotient, rounded to nearest with halves
going to the even digit. -/
def significant (count num den : Nat) : Decimal :=
  let exponent := leadingExponent num den - (count - 1 : Nat)
  let (n, d) := scaleDown num den exponent
  let digits := roundDiv .toEven n d
  if digits = pow10 count then ⟨pow10 (count - 1), exponent + 1⟩ else ⟨digits, exponent⟩

/-- A quotient in units of `10 ^ -places`, rounded to nearest with halves going to the even
neighbour. -/
def fixed (places num den : Nat) : Nat := roundDiv .toEven (num * pow10 places) den

/-- The same number without trailing zeros among its digits; zero has exponent zero. -/
def trim (d : Decimal) : Decimal :=
  if d.digits = 0 then ⟨0, 0⟩
  else
    let zeros := ((digitChars d.digits).reverse.takeWhile (· = '0')).length
    ⟨d.digits / pow10 zeros, d.exponent + zeros⟩

/-- The exponent of the leading digit. -/
def leading (d : Decimal) : Int := d.exponent + ((digitCount d.digits : Int) - 1)

/-- Digits around a point, with zeros filled in where the number needs them. A whole number has no
point unless `keepPoint` asks for `.0`. -/
def positional (keepPoint : Bool) (d : Decimal) : List Char :=
  let digits := digitChars d.digits
  match d.exponent with
  | .ofNat e =>
      digits ++ List.replicate e '0' ++ (if keepPoint then ['.', '0'] else [])
  | .negSucc e =>
      let places := e + 1
      let padded := List.replicate (places + 1 - digits.length) '0' ++ digits
      padded.take (padded.length - places) ++ '.' :: padded.drop (padded.length - places)

/-- One digit before the point, the others behind it, without a point when there are none. -/
def mantissaChars (d : Decimal) : List Char :=
  match digitChars d.digits with
  | [] => []
  | [c] => [c]
  | c :: cs => c :: '.' :: cs

/-- An integer with a sign only when negative. -/
def intChars : Int → List Char
  | .ofNat n => digitChars n
  | .negSucc n => '-' :: digitChars (n + 1)

end Decimal

end MarketMaking
