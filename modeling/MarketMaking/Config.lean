import MarketMaking.Binary64.Scalar
import MarketMaking.Error
import MarketMaking.Estimation.Calibrator
import MarketMaking.Estimation.History
import MarketMaking.Quote

/-!
# Configuration

The parameters of a strategy, their defaults, the conditions under which a strategy accepts them
and the durations that follow from them.
-/

namespace MarketMaking

/-- The parameters of a strategy. -/
structure Config (R : Type) where
  /-- Risk aversion inside the intensity term. -/
  xi : R
  /-- Weight of the inventory penalty. -/
  gamma : R
  /-- Depth scale in ticks. -/
  delta : R
  /-- The inventory at which no more is bought; its negation is where no more is sold. -/
  maxPosition : R
  /-- The quantity of every order. -/
  orderQty : R
  /-- The number of steps that a calibration looks back. -/
  calibrationWindow : Nat
  /-- The number of steps between two scheduled calibrations. -/
  calibrationCadence : Nat
  /-- The number of samples that the arrival history holds. -/
  historyCapacity : Nat
  /-- What happens when the arrival history is full. -/
  historyOverflow : HistoryOverflow
  /-- The factor from the deviation of one step to the unit of volatility. -/
  volatilityNormalization : R
  /-- The length of a step in milliseconds. -/
  stepMillis : Nat
  /-- The number of depth buckets that arrivals are counted in. -/
  histogramBuckets : Nat
  /-- The number of buckets that enter a fit. -/
  fitBuckets : Nat
  /-- Where per-step statistics are written. -/
  statsPath : Option String
  deriving Repr

namespace Config

/-- The parameters that hold where nothing else is said. Steps of 100 ms make the square root of
ten the factor to a volatility per second. -/
def default : Config Float where
  xi := 0.05
  gamma := 0.05
  delta := 1.0
  maxPosition := 5.0
  orderQty := 1.0
  calibrationWindow := 6000
  calibrationCadence := 50
  historyCapacity := 10000000
  historyOverflow := .fail
  volatilityNormalization := Float.sqrt 10.0
  stepMillis := 100
  histogramBuckets := 500
  fitBuckets := 70
  statsPath := none

variable {R : Type} [Scalar R]

open Scalar in
/-- The conditions on a configuration in the order in which they are checked, each with the defect
that its failure is. -/
def conditions (c : Config R) : List (Bool × ConfigDefect) := [
  (isFinite c.xi && isPositive c.xi, .xi),
  (isFinite c.gamma && isPositive c.gamma, .gamma),
  (isFinite c.delta && isPositive c.delta, .delta),
  (isPositive c.maxPosition, .maxPosition),
  (isPositive c.orderQty, .orderQty),
  (2 ≤ c.calibrationWindow, .calibrationWindow),
  (1 ≤ c.calibrationCadence, .calibrationCadence),
  (c.calibrationWindow ≤ c.historyCapacity, .historyCapacity),
  (c.historyOverflow = .fail || c.calibrationWindow < c.historyCapacity, .compactCapacity),
  (isFinite c.volatilityNormalization && isPositive c.volatilityNormalization,
    .volatilityNormalization),
  (0 < c.stepMillis, .stepMillis),
  (2 ≤ c.histogramBuckets, .histogramBuckets),
  (2 ≤ c.fitBuckets && c.fitBuckets ≤ c.histogramBuckets, .fitBuckets)]

/-- The first condition that fails. -/
def defect? (c : Config R) : Option ConfigDefect :=
  (c.conditions.find? (!·.1)).map Prod.snd

/-- A configuration has no defect exactly when all its conditions hold. -/
theorem defect?_eq_none_iff (c : Config R) :
    c.defect? = none ↔ ∀ condition ∈ c.conditions, condition.1 = true := by
  simp [defect?, List.find?_eq_none]

/-- The length of a step in seconds. -/
def stepSeconds (c : Config R) : R := Scalar.ofNat c.stepMillis / Scalar.ofNat 1000

/-- The length of a step in nanoseconds, as a signed 64-bit integer: the milliseconds are taken
modulo `2 ^ 64` into the signed range, and the product stops at the ends of that range. -/
def stepNanos (c : Config R) : Int :=
  max Binary64.minInt64
    (min Binary64.maxInt64 (Int.bmod (Int.ofNat c.stepMillis) (pow2 64) * 1000000))

/-- The time that a calibration window covers, in seconds. -/
def windowSeconds (c : Config R) : R := Scalar.ofNat c.calibrationWindow * c.stepSeconds

/-- The model parameters of the quotes. -/
def riskParams (c : Config R) : RiskParams R := ⟨c.xi, c.gamma, c.delta⟩

/-- The calibration schedule and its histogram. -/
def calibrator (c : Config R) : Calibrator R where
  window := c.calibrationWindow
  cadence := c.calibrationCadence
  histogramBuckets := c.histogramBuckets
  fitBuckets := c.fitBuckets
  windowSeconds := c.windowSeconds

end Config

end MarketMaking
