import MarketMaking.Error

/-!
# Least squares

The straight line through a list of points with the least sum of squared residuals.
-/

namespace MarketMaking

/-- The line `y = slope * x + intercept`. -/
structure Line (R : Type) where
  slope : R
  intercept : R
  deriving Repr

open Scalar in
/-- Fit a line by the normal equations. There must be as many ordinates as abscissae, at least two
points, and a spread of the abscissae that is neither zero nor beyond the number range. -/
def Line.fit {R : Type} [Scalar R] (xs ys : List R) : Except (Error R) (Line R) :=
  if xs.length ≠ ys.length then
    .error (.degenerateFit (.lengthMismatch xs.length ys.length))
  else if xs.length < 2 then .error (.degenerateFit (.tooFewPoints xs.length))
  else
    let n : R := ofNat xs.length
    let sx := sum xs
    let sy := sum ys
    let sxx := sum (xs.map fun x => x * x)
    let sxy := sum (List.zipWith (· * ·) xs ys)
    let spread := n * sxx - sx * sx
    if eq spread zero || !isFinite spread then .error (.degenerateFit .noVariance)
    else
      let slope := (n * sxy - sx * sy) / spread
      .ok ⟨slope, (sy - slope * sx) / n⟩

end MarketMaking
