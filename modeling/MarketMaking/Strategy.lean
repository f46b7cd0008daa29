import MarketMaking.Config
import MarketMaking.Estimation.Volatility
import MarketMaking.Reconcile

/-!
# The strategy

A market maker that is stepped against a venue. Every step records the market, refits the decay and
the volatility when that is due, computes a quote and reconciles the orders with it.
-/

namespace MarketMaking

/-- What a strategy remembers between steps. -/
structure Strategy (R : Type) where
  config : Config R
  history : ArrivalHistory R
  calibration : Calibration R
  /-- The number of steps completed. -/
  steps : Nat
  /-- Has the end of the warm-up been announced? -/
  announced : Bool
  calibrations : Nat
  failedCalibrations : Nat
  ordersSubmitted : Nat
  ordersCancelled : Nat

/-- What a step came to: its record or failure, the strategy and the venue after it, and what
happened. -/
structure StepOutcome (R V : Type) where
  result : Except (Error R) (StepRecord R)
  strategy : Strategy R
  venue : V
  events : List (Event R)

variable {R V : Type} [Scalar R]

/-- The inventory limit and the order quantity of a configuration. -/
def Config.orderLimits (c : Config R) : OrderLimits R := ⟨c.maxPosition, c.orderQty⟩

namespace Strategy

/-- A strategy before its first step. -/
def fresh (config : Config R) : Strategy R where
  config
  history := ArrivalHistory.empty config.historyCapacity config.historyOverflow
    config.calibrationWindow
  calibration := Calibration.unknown
  steps := 0
  announced := false
  calibrations := 0
  failedCalibrations := 0
  ordersSubmitted := 0
  ordersCancelled := 0

/-- A strategy on a configuration that has no defect. -/
def start (config : Config R) : Except (Error R) (Strategy R) :=
  match config.defect? with
  | some defect => .error (.invalidConfig defect)
  | none => .ok (fresh config)

/-- The totals so far. -/
def summary (s : Strategy R) : Summary R where
  steps := s.steps
  calibrations := s.calibrations
  failedCalibrations := s.failedCalibrations
  ordersSubmitted := s.ordersSubmitted
  ordersCancelled := s.ordersCancelled
  finalState := s.calibration

/-- The last calibration window of the history. -/
def window (s : Strategy R) : List (Sample R) := s.history.last s.config.calibrationWindow

/-- The event of a committed calibration. -/
def calibrationEvent (config : Config R) (step : Nat) (state : Calibration R) : Event R :=
  match Coefficients.ofDecay config.riskParams state.a state.k with
  | .ok c =>
      .calibrated step state c (c.halfSpread config.delta state.volatility)
        (c.skew state.volatility)
  | .error cause => .calibratedUnusable step state cause

/-- Fit the decay and estimate the volatility from the last window. Both are committed together,
with the volatility kept when there is no new estimate; a failed fit leaves the state as it was. -/
def fitWindow (s : Strategy R) (step : Nat) : Strategy R × Event R :=
  match s.config.calibrator.fit (s.window.map Sample.depth) with
  | .ok decay =>
      let volatility := Volatility.estimate s.config.calibrationWindow
        s.config.volatilityNormalization (s.window.map Sample.change)
      let state : Calibration R :=
        ⟨decay.a, decay.k, volatility.getD s.calibration.volatility, some step⟩
      ({ s with calibration := state, calibrations := s.calibrations + 1 },
        calibrationEvent s.config step state)
  | .error cause =>
      ({ s with failedCalibrations := s.failedCalibrations + 1 }, .calibrationSkipped step cause)

/-- Announce the end of the warm-up when the state is known for the first time. -/
def announce (s : Strategy R) (step : Nat) : Strategy R × List (Event R) :=
  if !s.announced && s.calibration.isKnown then
    ({ s with announced := true }, [.warmedUp step s.config.calibrationWindow])
  else (s, [])

/-- One attempt to calibrate, in the name of `step`. -/
def calibrate (s : Strategy R) (step : Nat) : Strategy R × List (Event R) :=
  let (s, event) := s.fitWindow step
  let (s, events) := s.announce step
  (s, event :: events)

/-- The quote of the current step. There is none before a whole window has been recorded, nor when
the state does not allow one. A failure that a run should not go on after is that of the step. -/
def quote (s : Strategy R) (book : Book R) (position : R) :
    Except (Error R) (Quote R) × List (Event R) :=
  if Volatility.isWarmedUp s.config.calibrationWindow s.history.recorded then
    match Quote.around s.config.riskParams s.calibration book position with
    | .ok q => (.ok q, [])
    | .error cause =>
        if cause.isRecoverable then
          (.ok Quote.suppressed, [.quotingSuppressed s.steps cause])
        else (.error cause, [])
  else (.ok Quote.suppressed, [])

/-- Record a step that the history does not refuse. Dropping old samples is an event. -/
def observe (s : Strategy R) (book : Book R) (trades : List (Trade R)) :
    Strategy R × List (Event R) :=
  let dropped := s.history.dropped
  let s := { s with history := s.history.add book trades }
  let newlyDropped := s.history.dropped - dropped
  (s, if newlyDropped = 0 then [] else [.historyCompacted newlyDropped (s.history.size - 1)])

/-- Is a calibration scheduled now? -/
def isDue (s : Strategy R) : Bool := s.config.calibrator.isDue s.steps s.history.size

/-- Count a completed step and what its pass over the orders did. -/
def complete (s : Strategy R) (r : Reconciliation) : Strategy R :=
  { s with
    steps := s.steps + 1
    ordersSubmitted := s.ordersSubmitted + r.submitted
    ordersCancelled := s.ordersCancelled + r.cancelled }

/-- The record of the current step. -/
def recordOf (s : Strategy R) (q : Quote R) (position : R) : StepRecord R where
  step := s.steps
  halfSpread := q.halfSpread
  skew := q.skew
  volatility := s.calibration.volatility
  a := s.calibration.a
  k := s.calibration.k
  bidPrice := q.bidPrice
  askPrice := q.askPrice
  position

variable [Venue V R]

/-- Process the market state that the venue is at. A step that cannot be recorded changes nothing.
A step that fails later, at its quote or with its orders, keeps its sample and its calibration, and
is not counted. -/
def step (s : Strategy R) (v : V) : StepOutcome R V :=
  let book := Venue.book v
  match s.history.refusal? with
  | some e => ⟨.error e, s, v, []⟩
  | none =>
      let (s, compaction) := s.observe book (Venue.lastTrades v)
      let v := Venue.clearTrades v
      let (s, calibration) := if s.isDue then s.calibrate s.steps else (s, [])
      let position := Venue.position v
      let (quoted, suppression) := s.quote book position
      let events := compaction ++ calibration ++ suppression
      match quoted with
      | .error e => ⟨.error e, s, v, events⟩
      | .ok q =>
          let pass := s.config.orderLimits.reconcile q v
          let events := events ++ pass.events
          match pass.result with
          | .error e => ⟨.error e, s, pass.venue, events⟩
          | .ok r => ⟨.ok (s.recordOf q position), s.complete r, pass.venue, events⟩

/-- One last calibration over the final window, unless the last step already made one. -/
def finish (s : Strategy R) : Strategy R × List (Event R) :=
  if s.config.calibrationWindow ≤ s.history.size && 0 < s.steps
      && !s.config.calibrator.isDue (s.steps - 1) s.history.size then
    s.calibrate (s.steps - 1)
  else (s, [])

end Strategy

end MarketMaking
