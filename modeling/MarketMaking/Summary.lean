import MarketMaking.Calibration

/-!
# Totals and per-step records
-/

namespace MarketMaking

/-- How many orders one pass of the order manager cancelled and placed. -/
structure Reconciliation where
  cancelled : Nat
  submitted : Nat
  deriving DecidableEq, Repr

/-- What one step quoted, from which state, and the inventory it saw. -/
structure StepRecord (R : Type) where
  step : Nat
  halfSpread : R
  skew : R
  volatility : R
  a : R
  k : R
  bidPrice : R
  askPrice : R
  position : R
  deriving Repr

/-- Totals of a run. -/
structure Summary (R : Type) where
  steps : Nat
  calibrations : Nat
  failedCalibrations : Nat
  ordersSubmitted : Nat
  ordersCancelled : Nat
  finalState : Calibration R
  deriving Repr

end MarketMaking
