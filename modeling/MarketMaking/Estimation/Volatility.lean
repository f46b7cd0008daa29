import MarketMaking.Scalar

/-!
# Volatility

The population standard deviation of the changes of the middle over a window, rescaled to the unit
that quotes are computed in.
-/

namespace MarketMaking.Volatility

variable {R : Type} [Scalar R]

/-- The running state of the variance: the number of samples so far, their sum, and the sum of
their squared deviations from the mean. -/
structure Deviation (R : Type) where
  count : R
  total : R
  squares : R

open Scalar in
/-- Take in one more sample. With `i` samples of sum `s` the squared deviations grow by
`(i x - s)^2 / (i (i - 1))`. -/
def Deviation.add (d : Deviation R) (x : R) : Deviation R :=
  let count := d.count + one
  let total := d.total + x
  let difference := count * x - total
  ⟨count, total, d.squares + difference * difference / (count * (count - one))⟩

/-- The population variance in one pass; unknown when there is no sample. -/
def variance : List R → R
  | [] => Scalar.nan
  | x :: xs =>
      let d := xs.foldl Deviation.add ⟨Scalar.one, x, Scalar.zero⟩
      d.squares / d.count

/-- The changes that enter the estimate: those that are present and finite. -/
def usable (changes : List (Option R)) : List R :=
  changes.filterMap fun change => change.bind Scalar.finite?

/-- The deviation of the last `window` changes times `normalization`. There is no estimate without
a usable change or when the result is beyond the number range. -/
def estimate (window : Nat) (normalization : R) (changes : List (Option R)) : Option R :=
  match usable (changes.drop (changes.length - window)) with
  | [] => none
  | xs => Scalar.finite? (Scalar.sqrt (variance xs) * normalization)

/-- Have enough steps been recorded for a whole window of changes? -/
def isWarmedUp (window recorded : Nat) : Bool := window ≤ recorded

end MarketMaking.Volatility
