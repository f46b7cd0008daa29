import MarketMaking.Binary64.Scalar
import MarketMaking.Decimal

/-!
# Reading numbers

Numbers written as text: decimals rounded to the nearest double, and natural numbers.
-/

namespace MarketMaking.Decimal

/-- The double nearest to a decimal, halves going to even. Numbers far beyond the range of doubles
are infinite, numbers far below it are zero. -/
def toFloat (negative : Bool) (d : Decimal) : Float :=
  let leading := d.leading
  let magnitude :=
    if d.digits = 0 ∨ leading < -400 then 0
    else if 400 < leading then Binary64.infinity
    else match d.exponent with
      | .ofNat e => Float.ofScientific d.digits false e
      | .negSucc e => Float.ofScientific d.digits true (e + 1)
  if negative then -magnitude else magnitude

/-- Split off a leading sign; true stands for minus. -/
def splitSign : List Char → Bool × List Char
  | '-' :: cs => (true, cs)
  | '+' :: cs => (false, cs)
  | cs => (false, cs)

/-- The value of an exponent part behind its `e`: a sign and at least one digit. -/
def exponent? (cs : List Char) : Option Int :=
  let (negative, digits) := splitSign cs
  if digits.isEmpty || !digits.all Char.isDigit then none
  else
    let n : Int := Int.ofNat (ofDigitChars digits)
    some (if negative then -n else n)

/-- An unsigned decimal: digits with at most one point among, before or behind them, and an
optional exponent. -/
def unsigned? (cs : List Char) : Option Decimal :=
  let whole := cs.takeWhile Char.isDigit
  let rest := cs.dropWhile Char.isDigit
  let (fraction, rest) := match rest with
    | '.' :: r => (r.takeWhile Char.isDigit, r.dropWhile Char.isDigit)
    | r => ([], r)
  if whole.isEmpty && fraction.isEmpty then none
  else
    let d : Decimal := ⟨ofDigitChars (whole ++ fraction), -(fraction.length : Int)⟩
    match rest with
    | [] => some d
    | c :: r =>
        if c = 'e' ∨ c = 'E' then (exponent? r).map fun e => ⟨d.digits, d.exponent + e⟩
        else none

/-- Read a double: an optional sign, then a decimal or one of the words `inf`, `infinity` and `nan`
in any case. -/
def readFloat? (text : String) : Option Float :=
  let (negative, cs) := splitSign text.toList
  let word := String.ofList (cs.map Char.toLower)
  if word = "inf" ∨ word = "infinity" then
    some (if negative then -Binary64.infinity else Binary64.infinity)
  else if word = "nan" then some Binary64.unknown
  else (unsigned? cs).map (toFloat negative)

/-- Read a natural number below `2 ^ 64`: an optional plus sign and at least one digit. -/
def readNat? (text : String) : Option Nat :=
  let digits := match text.toList with
    | '+' :: cs => cs
    | cs => cs
  if digits.isEmpty || !digits.all Char.isDigit then none
  else
    let n := ofDigitChars digits
    if n < pow2 64 then some n else none

end MarketMaking.Decimal
