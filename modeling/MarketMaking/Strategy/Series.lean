import MarketMaking.Estimation.ArrivalTable
import MarketMaking.Estimation.Series
import MarketMaking.Strategy.Run

/-!
# A strategy that keeps its two series apart

A strategy on a history with two series, with every operation that has a domain in one step of its
own: it has no result when it leaves such a domain, when one of its counts no longer fits in a word,
or when it turns to its two series at different lengths.
-/

namespace MarketMaking

open Machine

variable {R V K : Type}

/-- A strategy on a history with depths and changes in series of their own. -/
structure SeriesStrategy (R : Type) where
  config : Config R
  history : SeriesHistory R
  calibration : Calibration R
  steps : Nat
  announced : Bool
  calibrations : Nat
  failedCalibrations : Nat
  ordersSubmitted : Nat
  ordersCancelled : Nat

/-- The strategy with depths and changes in series of their own. -/
def Strategy.series (s : Strategy R) : SeriesStrategy R where
  config := s.config
  history := s.history.series
  calibration := s.calibration
  steps := s.steps
  announced := s.announced
  calibrations := s.calibrations
  failedCalibrations := s.failedCalibrations
  ordersSubmitted := s.ordersSubmitted
  ordersCancelled := s.ordersCancelled

namespace SeriesStrategy

/-- All that the strategy counts. -/
def counts (s : SeriesStrategy R) : List Nat :=
  [s.history.recorded, s.steps, s.calibrations, s.failedCalibrations, s.ordersSubmitted,
    s.ordersCancelled]

variable [Scalar R]

/-- Fit the decay and estimate the volatility. -/
def fitWindow? (s : SeriesStrategy R) (step : Nat) : Option (SeriesStrategy R) := do
  guard (s.history.depths.length = s.history.changes.length)
  match ← s.config.calibrator.fit? s.history.depths with
  | .ok decay =>
      let volatility ← Volatility.estimate? s.config.calibrationWindow
        s.config.volatilityNormalization s.history.changes
      let calibrations ← add? s.calibrations 1
      return { s with
        calibration :=
          ⟨decay.a, decay.k, volatility.getD s.calibration.volatility, some step⟩
        calibrations }
  | .error _ =>
      let failedCalibrations ← add? s.failedCalibrations 1
      return { s with failedCalibrations }

/-- Announce the end of the warm-up when the state is known for the first time. -/
def announce (s : SeriesStrategy R) : SeriesStrategy R :=
  if !s.announced && s.calibration.isKnown then { s with announced := true } else s

/-- One attempt to calibrate, in the name of `step`. -/
def calibrate? (s : SeriesStrategy R) (step : Nat) : Option (SeriesStrategy R) := do
  let s ← s.fitWindow? step
  return s.announce

/-- Calibrate if that is due. -/
def recalibrate? (s : SeriesStrategy R) : Option (SeriesStrategy R) := do
  let due ← s.config.calibrator.isDue? s.steps s.history.size
  if due then s.calibrate? s.steps else some s

/-- The quote of the current step, when so many steps are recorded. -/
def quote (s : SeriesStrategy R) (recorded : Nat) (book : Book R) (position : R) :
    Except (Error R) (Quote R) :=
  if Volatility.isWarmedUp s.config.calibrationWindow recorded then
    match Quote.around s.config.riskParams s.calibration book position with
    | .ok q => .ok q
    | .error cause => if cause.isRecoverable then .ok Quote.suppressed else .error cause
  else .ok Quote.suppressed

/-- The record of the current step. -/
def recordOf (s : SeriesStrategy R) (q : Quote R) (position : R) : StepRecord R where
  step := s.steps
  halfSpread := q.halfSpread
  skew := q.skew
  volatility := s.calibration.volatility
  a := s.calibration.a
  k := s.calibration.k
  bidPrice := q.bidPrice
  askPrice := q.askPrice
  position

/-- Count a completed step and what its pass over the orders did. -/
def complete? (s : SeriesStrategy R) (r : Reconciliation) : Option (SeriesStrategy R) := do
  let ordersCancelled ← add? s.ordersCancelled r.cancelled
  let ordersSubmitted ← add? s.ordersSubmitted r.submitted
  let steps ← add? s.steps 1
  return { s with ordersCancelled, ordersSubmitted, steps }

variable [Venue V R]

/-- Quote at a venue and pass over its orders. -/
def trade? (s : SeriesStrategy R) (recorded : Nat) (book : Book R) (v : V) :
    Option (Except (Error R) (StepRecord R) × SeriesStrategy R × V) :=
  let position := Venue.position v
  match s.quote recorded book position with
  | .error e => some (.error e, s, v)
  | .ok q =>
      let pass := s.config.orderLimits.reconcile q v
      match pass.result with
      | .error e => some (.error e, s, pass.venue)
      | .ok r => do return (.ok (s.recordOf q position), ← s.complete? r, pass.venue)

/-- Process the market state that the venue is at. -/
def step? (s : SeriesStrategy R) (v : V) :
    Option (Except (Error R) (StepRecord R) × SeriesStrategy R × V) := do
  let book := Venue.book v
  match ← s.history.record? book (Venue.lastTrades v) with
  | (.error e, history) => return (.error e, { s with history }, v)
  | (.ok (), history) =>
      let recorded ← history.recorded?
      let s ← recalibrate? { s with history }
      s.trade? recorded book (Venue.clearTrades v)

/-- One last calibration over the final window, unless the last step already made one. -/
def finish? (s : SeriesStrategy R) : Option (SeriesStrategy R) :=
  if s.config.calibrationWindow ≤ s.history.size && 0 < s.steps then do
    let last ← sub? s.steps 1
    let due ← s.config.calibrator.isDue? last s.history.size
    if due then some s else s.calibrate? last
  else some s

variable [Recorder K R]

/-- Step at every tick, for at most `horizon` ticks, then make the last calibration. -/
def runFrom? : (horizon : Nat) → SeriesStrategy R → V → K → Option (SeriesStrategy R)
  | 0, s, _, _ => s.finish?
  | horizon + 1, s, v, k =>
      match Venue.elapse v s.config.stepNanos with
      | (false, _) => s.finish?
      | (true, v) => do
          match ← s.step? v with
          | (.error _, s, _) => return s
          | (.ok row, s, v) =>
              match Recorder.record k row with
              | (.error _, _) => return s
              | (.ok (), k) => runFrom? horizon s v k

/-- Run until the venue has no more of its `ticks` ticks. -/
def run? (s : SeriesStrategy R) (ticks : Nat) (v : V) (k : K) : Option (SeriesStrategy R) :=
  s.runFrom? (ticks + 1) v k

end SeriesStrategy

end MarketMaking
