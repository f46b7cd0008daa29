import MarketMaking.Binary64
import MarketMaking.Decimal

/-!
# Shortest decimals

The fewest significant digits that read back as the same double, and among the decimals of that
length the one nearest to the double.
-/

namespace MarketMaking.Decimal

/-- The numbers that read back as the double `mantissa * 2 ^ exponent`, in quarters of its last
place: from `low` to `high`, with the ends included when the mantissa is even. The lower half of
the interval is narrower at a power of two. -/
structure ReadingInterval where
  low : Nat
  value : Nat
  high : Nat
  closed : Bool

/-- The interval that rounds to a positive double. -/
def ReadingInterval.of (mantissa : Nat) (exponent : Int) : ReadingInterval where
  low := 4 * mantissa -
    (if mantissa = pow2 52 ∧ Binary64.minExponent < exponent then 1 else 2)
  value := 4 * mantissa
  high := 4 * mantissa + 2
  closed := mantissa % 2 = 0

/-- Does the point `num`, on the scale of the interval's ends times `unit`, lie inside? -/
def ReadingInterval.contains (r : ReadingInterval) (unit num : Nat) : Bool :=
  if r.closed then r.low * unit ≤ num && num ≤ r.high * unit
  else r.low * unit < num && num < r.high * unit

/-- The nearest decimal on the grid of multiples of `10 ^ exponent` that lies in the interval, if
any does. It is one of the two neighbours of the value on that grid; `unit / den` is a quarter of
the double's last place. -/
def ReadingInterval.onGrid? (r : ReadingInterval) (tie : Tie) (unit den : Nat) (exponent : Int) :
    Option Decimal :=
  let (unit, den) := scaleDown unit den exponent
  let below := r.value * unit / den
  let above := below + 1
  let lower := if r.contains unit (below * den) then some below else none
  let upper := if r.contains unit (above * den) then some above else none
  let chosen := match lower, upper with
    | some l, some u =>
        let toLower := r.value * unit - l * den
        let toUpper := u * den - r.value * unit
        if toLower < toUpper then some l
        else if toUpper < toLower then some u
        else match tie with
          | .toEven => some (if l % 2 = 0 then l else u)
          | .up => some u
    | some l, none => some l
    | none, some u => some u
    | none, none => none
  chosen.map (⟨·, exponent⟩)

/-- The shortest decimal that reads back as the positive double `mantissa * 2 ^ exponent`. Seventeen
digits always suffice; a tie between two decimals of the least length goes as `tie` says. -/
def shortest (tie : Tie) (mantissa : Nat) (exponent : Int) : Decimal :=
  let (num, den) := Binary64.ratio mantissa exponent
  let (unit, unitDen) := Binary64.ratio 1 (exponent - 2)
  let interval := ReadingInterval.of mantissa exponent
  let leading := leadingExponent num den
  match (List.range 17).findSome? fun (extra : Nat) =>
      interval.onGrid? tie unit unitDen (leading - extra) with
  | some d => d.trim
  | none => (significant 17 num den).trim

end MarketMaking.Decimal
