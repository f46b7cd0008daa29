import MarketMaking.Quote
import MarketMaking.Summary

/-!
# Events

What happens while a strategy runs, in order: what its history and its calibration went through and
what it requested from the venue.
-/

namespace MarketMaking

/-- One thing that happened. -/
inductive Event (R : Type) where
  /-- Old samples were dropped from the arrival history. -/
  | historyCompacted (dropped retained : Nat)
  /-- A calibration was committed; with the quote parameters that follow from it. -/
  | calibrated (step : Nat) (state : Calibration R) (coefficients : Coefficients R)
      (halfSpread skew : R)
  /-- A calibration was committed from which no quote can be computed. -/
  | calibratedUnusable (step : Nat) (state : Calibration R) (cause : Error R)
  /-- A calibration failed and left the state as it was. -/
  | calibrationSkipped (step : Nat) (cause : Error R)
  /-- Decay and volatility are known for the first time. -/
  | warmedUp (step window : Nat)
  /-- No quote could be computed. -/
  | quotingSuppressed (step : Nat) (cause : Error R)
  /-- A cancellation was requested. -/
  | cancelRequested (id : OrderId) (accepted : Bool)
  /-- A new order was requested; with the failure of the request, if it failed. -/
  | orderRequested (request : OrderRequest R) (failure : Option (Error R))
  /-- A run came to its end. -/
  | runFinished (summary : Summary R)

namespace Event

variable {R : Type}

/-- The request for a new order that this event is, if it is one. -/
def request? : Event R → Option (OrderRequest R)
  | orderRequested request _ => some request
  | _ => none

end Event

end MarketMaking
