import MarketMaking.Estimation.Histogram
import MarketMaking.Estimation.Regression

/-!
# Fitting the intensity decay

The arrival intensity at depth `d` is modelled as `A exp(-k d)`. On a fixed cadence the decay is
refitted from the depths of a window: a line through the logarithms of the cumulative intensities.
-/

namespace MarketMaking

/-- How often and from what the decay is fitted. -/
structure Calibrator (R : Type) where
  /-- The number of steps that enter a fit. -/
  window : Nat
  /-- The number of steps between two scheduled fits. -/
  cadence : Nat
  /-- The number of depth buckets that arrivals are counted in. -/
  histogramBuckets : Nat
  /-- The number of buckets that enter the fit. -/
  fitBuckets : Nat
  /-- The time that a window covers, in seconds. -/
  windowSeconds : R
  deriving Repr

/-- The parameters of a fitted decay and the number of buckets they were fitted to. -/
structure Decay (R : Type) where
  a : R
  k : R
  points : Nat
  deriving Repr

namespace Calibrator

variable {R : Type} [Scalar R]

/-- Is a fit scheduled at `step` when `available` samples are held? There is no answer for a
cadence of zero once the window is full. -/
def isDue? (c : Calibrator R) (step available : Nat) : Option Bool :=
  if available < c.window then some false
  else if c.cadence = 0 then none
  else some (step % c.cadence = 0)

/-- Is a fit scheduled at `step`, for a positive cadence? -/
def isDue (c : Calibrator R) (step available : Nat) : Bool :=
  c.window ≤ available && step % c.cadence == 0

omit [Scalar R] in
/-- With a positive cadence it is always known whether a fit is scheduled. -/
theorem isDue?_eq_some (c : Calibrator R) (pos : 0 < c.cadence) (step available : Nat) :
    c.isDue? step available = some (c.isDue step available) := by
  unfold isDue? isDue
  grind

open Scalar in
/-- The points of the fit: bucket centres and logarithms of the intensities that are positive. -/
def points (c : Calibrator R) (counts : List Nat) : List (R × R) :=
  (counts.take c.fitBuckets).zipIdx.filterMap fun (count, bucket) =>
    let intensity := ofNat count / c.windowSeconds
    if isPositive intensity then some (ofNat bucket + half, ln intensity) else none

open Scalar in
/-- Fit the decay to the depths of a window. -/
def fitWindow (c : Calibrator R) (depths : List (Option R)) : Except (Error R) (Decay R) :=
  let points := c.points (Histogram.cumulative c.histogramBuckets depths)
  if points.length < 2 then .error (.degenerateFit (.sparseIntensity points.length))
  else do
    let line ← Line.fit (points.map Prod.fst) (points.map Prod.snd)
    return ⟨exp line.intercept, -line.slope, points.length⟩

/-- Fit the decay to the last window of a series of depths. -/
def fit (c : Calibrator R) (depths : List (Option R)) : Except (Error R) (Decay R) :=
  if depths.length < c.window then
    .error (.degenerateFit (.shortHistory depths.length c.window))
  else c.fitWindow (depths.drop (depths.length - c.window))

end Calibrator

end MarketMaking
