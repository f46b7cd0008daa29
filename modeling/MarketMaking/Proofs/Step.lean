import MarketMaking.Strategy

/-!
# What one step comes to

A step either is refused by the history and changes nothing, or it records the market, makes the
calibration that is due, computes a quote and passes over the orders. The stages have names here.
A quote may fail, but only with a failure that suppresses it, so that a step is refused, or it is
its preparation followed by its pass.
-/

namespace MarketMaking

variable {R V : Type} [Scalar R]

/-! ### The quote -/

private theorem Coefficients.eq_invalidCalibration_of_ofDecay {params : RiskParams R} {a k : R}
    {e : Error R} (failed : ofDecay params a k = .error e) : e = .invalidCalibration a k := by
  unfold ofDecay at failed
  split at failed
  · cases failed
  · exact (Except.error.inj failed).symm

private theorem Quote.eq_invalidCalibration_of_around {params : RiskParams R}
    {calibration : Calibration R} {book : Book R} {position : R} {e : Error R}
    (failed : around params calibration book position = .error e) :
    e = .invalidCalibration calibration.a calibration.k := by
  unfold around at failed
  cases hc : Coefficients.ofDecay params calibration.a calibration.k with
  | ok c =>
    rw [hc] at failed
    cases failed
  | error cause =>
    rw [hc] at failed
    obtain rfl := Except.error.inj failed
    exact Coefficients.eq_invalidCalibration_of_ofDecay hc

/-- A run can go on after every failure of a quote. -/
theorem Quote.isRecoverable_of_around {params : RiskParams R} {calibration : Calibration R}
    {book : Book R} {position : R} {e : Error R}
    (failed : around params calibration book position = .error e) : e.isRecoverable = true := by
  rw [eq_invalidCalibration_of_around failed]
  rfl

namespace Strategy

/-- What is quoted now, with the events of that: nothing before a whole window has been recorded,
nor on any failure of the quote. -/
def quotation (s : Strategy R) (book : Book R) (position : R) : Quote R × List (Event R) :=
  if Volatility.isWarmedUp s.config.calibrationWindow s.history.recorded then
    match Quote.around s.config.riskParams s.calibration book position with
    | .ok q => (q, [])
    | .error cause => (Quote.suppressed, [.quotingSuppressed s.steps cause])
  else (Quote.suppressed, [])

/-- No state of a strategy makes its quote fail, as a run goes on after every failure of the closed
form. -/
theorem quote_eq (s : Strategy R) (book : Book R) (position : R) :
    s.quote book position = (.ok (s.quotation book position).1, (s.quotation book position).2) := by
  unfold quote quotation
  split
  · cases computed : Quote.around s.config.riskParams s.calibration book position with
    | ok q => rfl
    | error cause =>
      dsimp only
      rw [if_pos (Quote.isRecoverable_of_around computed)]
  · rfl

/-! ### The stages -/

variable [Venue V R]

/-- The strategy once the market at the venue is recorded, with the events of that. -/
def observed (s : Strategy R) (v : V) : Strategy R × List (Event R) :=
  s.observe (Venue.book v) (Venue.lastTrades v)

/-- The strategy once a calibration that is due has been made, with the events of that. -/
def recalibrated (s : Strategy R) : Strategy R × List (Event R) :=
  if s.isDue then s.calibrate s.steps else (s, [])

/-- The strategy when it comes to its quote: market recorded, calibration made. -/
def prepared (s : Strategy R) (v : V) : Strategy R := (s.observed v).1.recalibrated.1

/-- The quote of a step, with the events of computing it. -/
def quoted (s : Strategy R) (v : V) : Quote R × List (Event R) :=
  (s.prepared v).quotation (Venue.book v) (Venue.position (Venue.clearTrades v))

/-- The pass of a step over the orders. -/
def pass (s : Strategy R) (v : V) : Activity R V (Except (Error R) Reconciliation) :=
  s.config.orderLimits.reconcile (s.quoted v).1 (Venue.clearTrades v)

/-- The events of a step before it comes to its orders. -/
def preparation (s : Strategy R) (v : V) : List (Event R) :=
  (s.observed v).2 ++ (s.observed v).1.recalibrated.2 ++ (s.quoted v).2

/-! ### What each stage leaves alone -/

omit [Venue V R] in
/-- An attempt to calibrate fits the window and then announces. -/
theorem calibrate_eq (s : Strategy R) (step : Nat) :
    s.calibrate step =
      (((s.fitWindow step).1.announce step).1,
        (s.fitWindow step).2 :: ((s.fitWindow step).1.announce step).2) := rfl

omit [Venue V R] in
/-- An announcement changes its flag and nothing else. -/
theorem announce_frame (s : Strategy R) (step : Nat) :
    (s.announce step).1 = { s with announced := (s.announce step).1.announced } := by
  unfold announce
  split <;> rfl

omit [Venue V R] in
/-- What is calibrated is what is fitted. -/
@[simp] theorem calibration_calibrate (s : Strategy R) (step : Nat) :
    (s.calibrate step).1.calibration = (s.fitWindow step).1.calibration := by
  rw [calibrate_eq, announce_frame]

omit [Venue V R] in
/-- A calibration is counted when the fit is. -/
@[simp] theorem calibrations_calibrate (s : Strategy R) (step : Nat) :
    (s.calibrate step).1.calibrations = (s.fitWindow step).1.calibrations := by
  rw [calibrate_eq, announce_frame]

omit [Venue V R] in
/-- A failed calibration is counted when the failed fit is. -/
@[simp] theorem failedCalibrations_calibrate (s : Strategy R) (step : Nat) :
    (s.calibrate step).1.failedCalibrations = (s.fitWindow step).1.failedCalibrations := by
  rw [calibrate_eq, announce_frame]

omit [Venue V R] in
/-- An attempt to calibrate changes the calibration, the announcement and the two counts of
attempts, and nothing else. -/
theorem calibrate_frame (s : Strategy R) (step : Nat) :
    (s.calibrate step).1 =
      { s with
        calibration := (s.calibrate step).1.calibration
        announced := (s.calibrate step).1.announced
        calibrations := (s.calibrate step).1.calibrations
        failedCalibrations := (s.calibrate step).1.failedCalibrations } := by
  rw [calibrate_eq, announce_frame]
  unfold fitWindow
  split <;> rfl

omit [Venue V R] in
/-- The calibration that is due changes no more than any attempt to calibrate. -/
theorem recalibrated_frame (s : Strategy R) :
    s.recalibrated.1 =
      { s with
        calibration := s.recalibrated.1.calibration
        announced := s.recalibrated.1.announced
        calibrations := s.recalibrated.1.calibrations
        failedCalibrations := s.recalibrated.1.failedCalibrations } := by
  unfold recalibrated
  split
  · exact calibrate_frame s s.steps
  · rfl

omit [Venue V R] in
/-- The last calibration changes no more than any attempt to calibrate. -/
theorem finish_frame (s : Strategy R) :
    s.finish.1 =
      { s with
        calibration := s.finish.1.calibration
        announced := s.finish.1.announced
        calibrations := s.finish.1.calibrations
        failedCalibrations := s.finish.1.failedCalibrations } := by
  unfold finish
  split
  · exact calibrate_frame s (s.steps - 1)
  · rfl

/-- A strategy keeps its configuration up to its quote. -/
@[simp] theorem config_prepared (s : Strategy R) (v : V) : (s.prepared v).config = s.config := by
  rw [prepared, recalibrated_frame]
  rfl

/-- When a strategy comes to its quote, its history has the sample of the step. -/
@[simp] theorem history_prepared (s : Strategy R) (v : V) :
    (s.prepared v).history = s.history.add (Venue.book v) (Venue.lastTrades v) := by
  rw [prepared, recalibrated_frame]
  rfl

/-- A step is not counted before its orders are done. -/
@[simp] theorem steps_prepared (s : Strategy R) (v : V) : (s.prepared v).steps = s.steps := by
  rw [prepared, recalibrated_frame]
  rfl

/-! ### The two ways of a step -/

/-- A step that the history refuses changes nothing. -/
theorem step_of_refusal {s : Strategy R} {e : Error R} (refused : s.history.refusal? = some e)
    (v : V) : s.step v = ⟨.error e, s, v, []⟩ := by
  unfold step
  rw [refused]

/-- What a recorded step comes to, by what became of its quote. -/
def ended (s : Strategy R) (v : V) (computed : Except (Error R) (Quote R) × List (Event R)) :
    StepOutcome R V :=
  let (quoted, suppression) := computed
  let events := (s.observed v).2 ++ (s.observed v).1.recalibrated.2 ++ suppression
  match quoted with
  | .error e => ⟨.error e, s.prepared v, Venue.clearTrades v, events⟩
  | .ok q =>
      let pass := (s.prepared v).config.orderLimits.reconcile q (Venue.clearTrades v)
      let events := events ++ pass.events
      match pass.result with
      | .error e => ⟨.error e, s.prepared v, pass.venue, events⟩
      | .ok r =>
          ⟨.ok ((s.prepared v).recordOf q (Venue.position (Venue.clearTrades v))),
            (s.prepared v).complete r, pass.venue, events⟩

/-- A step that is recorded is its preparation followed by its pass over the orders. -/
theorem step_of_room {s : Strategy R} (room : s.history.refusal? = none) (v : V) :
    s.step v = match (s.pass v).result with
      | .error e =>
          ⟨.error e, s.prepared v, (s.pass v).venue, s.preparation v ++ (s.pass v).events⟩
      | .ok r =>
          ⟨.ok ((s.prepared v).recordOf (s.quoted v).1 (Venue.position (Venue.clearTrades v))),
            (s.prepared v).complete r, (s.pass v).venue,
            s.preparation v ++ (s.pass v).events⟩ := by
  -- the way out for a quote that fails is there, and no state takes it
  have hstep : s.step v = s.ended v
      ((s.prepared v).quote (Venue.book v) (Venue.position (Venue.clearTrades v))) := by
    unfold step
    rw [room]
    rfl
  rw [hstep, quote_eq, ended, config_prepared]
  rfl

/-- The pass of a recorded step changes the count of steps and those of orders, and nothing else of
what was prepared. -/
theorem step_frame {s : Strategy R} (room : s.history.refusal? = none) (v : V) :
    (s.step v).strategy =
      { s.prepared v with
        steps := (s.step v).strategy.steps
        ordersSubmitted := (s.step v).strategy.ordersSubmitted
        ordersCancelled := (s.step v).strategy.ordersCancelled } := by
  rw [step_of_room room]
  cases (s.pass v).result <;> rfl

/-- A recorded step leaves the history with its sample. -/
theorem history_step {s : Strategy R} (room : s.history.refusal? = none) (v : V) :
    (s.step v).strategy.history = s.history.add (Venue.book v) (Venue.lastTrades v) := by
  rw [step_frame room]
  exact history_prepared s v

/-- After a step the venue is as it was, or as the pass over the orders left it. -/
theorem venue_step (s : Strategy R) (v : V) :
    (s.step v).venue = v ∨ (s.step v).venue = (s.pass v).venue := by
  cases hr : s.history.refusal? with
  | some e =>
    rw [step_of_refusal hr]
    exact .inl rfl
  | none =>
    rw [step_of_room hr]
    right
    cases (s.pass v).result <;> rfl

/-- A strategy keeps its configuration through a step. -/
@[simp] theorem config_step (s : Strategy R) (v : V) : (s.step v).strategy.config = s.config := by
  cases hr : s.history.refusal? with
  | some e => rw [step_of_refusal hr]
  | none =>
    rw [step_of_room hr]
    cases (s.pass v).result with
    | error e => exact config_prepared s v
    | ok r => exact config_prepared s v

/-- A completed step left the venue as its pass did, and its record is that of its quote. -/
theorem step_of_ok {s : Strategy R} {v : V} {row : StepRecord R}
    (completed : (s.step v).result = .ok row) :
    (s.step v).venue = (s.pass v).venue ∧
      row = (s.prepared v).recordOf (s.quoted v).1 (Venue.position (Venue.clearTrades v)) := by
  cases hr : s.history.refusal? with
  | some e =>
    rw [step_of_refusal hr] at completed
    cases completed
  | none =>
    rw [step_of_room hr] at completed ⊢
    cases hp : (s.pass v).result with
    | error e =>
      rw [hp] at completed
      cases completed
    | ok r =>
      rw [hp] at completed
      exact ⟨rfl, (Except.ok.inj completed).symm⟩

end Strategy

end MarketMaking
