import MarketMaking.Proofs.Binary64.Finite
import MarketMaking.Proofs.Chronicle
import MarketMaking.Proofs.PostOnly
import MarketMaking.Proofs.Stages

/-!
# No order before the warm-up

Four things have to come to pass before the first order is requested: a whole window of steps is
recorded, a calibration has succeeded, decay and volatility are known with a positive decay, and the
end of the warm-up has been announced, which happens once. Each of them has a gate of its own: the
count of recorded steps, the coefficients, the depth of a side, and the flag behind the
announcement. Until then no side has a price.
-/

namespace MarketMaking

variable {R V : Type}

/-- Is this the announcement of the end of the warm-up? -/
def Event.isWarmUp : Event R → Bool
  | warmedUp .. => true
  | _ => false

private theorem Event.stage_of_isWarmUp (event : Event R) (warm : event.isWarmUp = true) :
    event.stage = .calibrating := by
  cases event <;> first | rfl | cases warm

private theorem Event.AllFrom.countP_isWarmUp {events : List (Event R)}
    (trading : AllFrom .trading events) : events.countP isWarmUp = 0 :=
  trading.countP_eq_zero stage_of_isWarmUp (by decide)

variable [Scalar R]

/-- All that comes to pass before orders are requested, when `events` is what has happened. -/
structure Strategy.IsReady (s : Strategy R) (events : List (Event R)) : Prop where
  window : s.config.calibrationWindow ≤ s.history.recorded
  calibrated : 1 ≤ s.summary.calibrations
  known : s.calibration.isKnown = true
  positive : Scalar.isPositive s.calibration.a = true ∧ Scalar.isPositive s.calibration.k = true
  announced : events.countP Event.isWarmUp = 1

/-! ### The announcement -/

namespace Strategy

/-- What follows from decay and volatility being known: a calibration was committed, and the end of
the warm-up was announced. -/
structure Informed (s : Strategy R) : Prop where
  calibrated : s.calibration.isKnown = true → 1 ≤ s.calibrations
  announced : s.calibration.isKnown = true → s.announced = true

private theorem countP_announce (s : Strategy R) (step : Nat) :
    s.announced.toNat + (s.announce step).2.countP Event.isWarmUp =
      (s.announce step).1.announced.toNat := by
  unfold announce
  split
  · next h =>
    have hflag : s.announced = false := by simp_all
    rw [hflag]
    rfl
  · rfl

private theorem countP_calibrate (s : Strategy R) (step : Nat) :
    s.announced.toNat + (s.calibrate step).2.countP Event.isWarmUp =
      (s.calibrate step).1.announced.toNat := by
  have hfit : (s.fitWindow step).2.isWarmUp = false := by
    unfold fitWindow
    split
    · simp only [calibrationEvent]
      split <;> rfl
    · rfl
  have hflag : (s.fitWindow step).1.announced = s.announced := by
    unfold fitWindow
    split <;> rfl
  rw [calibrate_eq, List.countP_cons_of_neg (by simp [hfit]), ← hflag]
  exact countP_announce _ step

/-- After an attempt to calibrate, what is known was calibrated and is announced. -/
theorem Informed.calibrate {s : Strategy R} (informed : s.Informed) (step : Nat) :
    (s.calibrate step).1.Informed := by
  have hannounce (t : Strategy R) (known : t.calibration.isKnown = true) :
      (t.announce step).1.announced = true := by
    unfold announce
    split
    · rfl
    · simp_all
  constructor
  · rw [calibration_calibrate, calibrations_calibrate]
    intro known
    unfold fitWindow at known ⊢
    split at known
    · exact Nat.le_add_left 1 _
    · exact informed.calibrated known
  · rw [calibration_calibrate, calibrate_eq]
    exact hannounce _

private theorem countP_recalibrated (s : Strategy R) :
    s.announced.toNat + s.recalibrated.2.countP Event.isWarmUp =
      s.recalibrated.1.announced.toNat := by
  unfold recalibrated
  split
  · exact s.countP_calibrate s.steps
  · rfl

/-- The last calibration announces when it raises the flag. -/
theorem countP_finish (s : Strategy R) :
    s.announced.toNat + s.finish.2.countP Event.isWarmUp = s.finish.1.announced.toNat := by
  unfold finish
  split
  · exact s.countP_calibrate (s.steps - 1)
  · rfl

theorem Informed.recalibrated {s : Strategy R} (informed : s.Informed) :
    s.recalibrated.1.Informed := by
  unfold Strategy.recalibrated
  split
  · exact informed.calibrate s.steps
  · exact informed

theorem Informed.finish {s : Strategy R} (informed : s.Informed) : s.finish.1.Informed := by
  unfold Strategy.finish
  split
  · exact informed.calibrate (s.steps - 1)
  · exact informed

variable [Venue V R]

/-- When a strategy comes to its quote, what is known was calibrated and is announced. -/
theorem Informed.prepared {s : Strategy R} (informed : s.Informed) (v : V) :
    (s.prepared v).Informed := by
  have hobserved : (s.observed v).1.Informed := ⟨informed.calibrated, informed.announced⟩
  exact hobserved.recalibrated

theorem Informed.step {s : Strategy R} (informed : s.Informed) (v : V) :
    (s.step v).strategy.Informed := by
  cases hr : s.history.refusal? with
  | some e =>
    rw [step_of_refusal hr]
    exact informed
  | none =>
    rw [step_frame hr]
    have hprepared := informed.prepared v
    exact ⟨hprepared.calibrated, hprepared.announced⟩

private theorem countP_preparation (s : Strategy R) (v : V) :
    s.announced.toNat + (s.preparation v).countP Event.isWarmUp =
      (s.prepared v).announced.toNat := by
  rw [← Event.countP_filter_stage Event.stage_of_isWarmUp, filter_preparation]
  exact countP_recalibrated (s.observed v).1

/-- A step announces when it raises the flag. -/
theorem countP_step (s : Strategy R) (v : V) :
    s.announced.toNat + (s.step v).events.countP Event.isWarmUp =
      (s.step v).strategy.announced.toNat := by
  cases hr : s.history.refusal? with
  | some e =>
    rw [step_of_refusal hr]
    rfl
  | none =>
    rw [step_frame hr, events_of_room hr, List.countP_append,
      (s.allFrom_pass v).countP_isWarmUp, Nat.add_zero]
    exact s.countP_preparation v

end Strategy

/-! ### Prices -/

namespace Quote

variable {params : RiskParams Float} {calibration : Calibration Float} {book : Book Float}
  {position : Float} {q : Quote Float}

private theorem isFinite_of_priceAt {tick depth tickSize : Float}
    (priced : (priceAt tick depth tickSize).isNaN = false) : depth.isFinite = true := by
  have hnan : (Scalar.nan : Float).isNaN = true := by decide +kernel
  unfold priceAt at priced
  split at priced
  · next finite => exact finite
  · rw [hnan] at priced
    cases priced

private theorem priced_of_on {side : Side} {price : Float} (quoted : q.on side = some price) :
    q.bidPrice.isNaN = false ∨ q.askPrice.isNaN = false := by
  have hknown {x : Float} (finite : Scalar.finite? x = some price) : x.isNaN = false := by
    unfold Scalar.finite? at finite
    split at finite
    · next hx => exact (Binary64.isFinite_iff.mp hx).1
    · cases finite
  cases side with
  | buy => exact .inl (hknown quoted)
  | sell => exact .inr (hknown quoted)

/-- A quote with a price was computed from a known state with a positive decay. -/
theorem isKnown_of_around (computed : Quote.around params calibration book position = .ok q)
    (priced : q.bidPrice.isNaN = false ∨ q.askPrice.isNaN = false) :
    calibration.isKnown = true ∧ Scalar.isPositive calibration.a = true ∧
      Scalar.isPositive calibration.k = true := by
  obtain ⟨c, hc, -, hskew, hprice⟩ := of_around computed
  obtain ⟨⟨ha, hapos⟩, hk, hkpos⟩ := decay_of_ofDecay hc
  have hdepth : ∃ side, (q.depth position side).isFinite = true := by
    rcases priced with h | h
    · exact ⟨.buy, isFinite_of_priceAt ((congrArg Float.isNaN (hprice .buy)).symm.trans h)⟩
    · exact ⟨.sell, isFinite_of_priceAt ((congrArg Float.isNaN (hprice .sell)).symm.trans h)⟩
  obtain ⟨side, hside⟩ := hdepth
  obtain ⟨-, hfinite, -⟩ := isFinite_of_depth hside
  have hvolatility : calibration.volatility.isFinite = true :=
    (Binary64.isFinite_of_isFinite_mul (hskew ▸ hfinite)).2
  have hknown : calibration.isKnown = true := by
    unfold Calibration.isKnown
    rw [Bool.and_eq_true, Bool.and_eq_true]
    exact ⟨⟨ha, hk⟩, hvolatility⟩
  exact ⟨hknown, hapos, hkpos⟩

end Quote

namespace Strategy

variable {V : Type} [Venue V Float] {s : Strategy Float} {v : V}

/-- A step that has a price for a side comes to its quote with a whole window recorded and a known
state with a positive decay. -/
theorem known_of_priced
    (priced : (s.quoted v).1.bidPrice.isNaN = false ∨ (s.quoted v).1.askPrice.isNaN = false) :
    s.config.calibrationWindow ≤ (s.prepared v).history.recorded ∧
      (s.prepared v).calibration.isKnown = true ∧
      Scalar.isPositive (s.prepared v).calibration.a = true ∧
      Scalar.isPositive (s.prepared v).calibration.k = true := by
  have hnan : (Scalar.nan : Float).isNaN = true := by decide +kernel
  have hsuppressed :
      ¬ ((Scalar.nan : Float).isNaN = false ∨ (Scalar.nan : Float).isNaN = false) := by
    rw [hnan]
    decide
  unfold quoted quotation at priced
  split at priced
  · next warm =>
    rw [config_prepared] at warm
    have hwindow := of_decide_eq_true warm
    split at priced
    · next computed => exact ⟨hwindow, Quote.isKnown_of_around computed priced⟩
    · exact absurd priced hsuppressed
  · exact absurd priced hsuppressed

end Strategy

/-! ### Chronicles -/

namespace Chronicle

variable {V : Type} [Venue V Float] {c : Config Float} {past : List (Deed Float V)}
  {s : Strategy Float} {v : V}

/-- Whatever has been done, what is known was calibrated and is announced. -/
theorem informed (chronicle : Chronicle c past s v) : s.Informed := by
  induction chronicle with
  | start v started =>
    obtain ⟨-, rfl⟩ := Strategy.start_eq_ok_iff.mp started
    have hunknown : ¬ (Calibration.unknown : Calibration Float).isKnown = true := by
      decide +kernel
    exact ⟨fun known ↦ absurd known hunknown, fun known ↦ absurd known hunknown⟩
  | market _ w ih => exact ih
  | step _ ih => exact ih.step _
  | finish _ ih => exact ih.finish

/-- The flag is up when the announcement was made, and it was made once. -/
theorem countP_told (chronicle : Chronicle c past s v) :
    (told past).countP Event.isWarmUp = s.announced.toNat := by
  induction chronicle with
  | start v started =>
    obtain ⟨-, rfl⟩ := Strategy.start_eq_ok_iff.mp started
    rfl
  | market _ w ih => exact ih
  | @step past s v _ ih =>
    rw [told_append, told_singleton, List.countP_append, ih]
    exact s.countP_step v
  | @finish past s v _ ih =>
    rw [told_append, told_singleton, List.countP_append, ih]
    exact s.countP_finish

/-- When a step has a price for a side, everything has come to pass before it comes to its
orders. -/
theorem isReady_of_priced (chronicle : Chronicle c past s v) (room : s.history.refusal? = none)
    (priced : (s.quoted v).1.bidPrice.isNaN = false ∨ (s.quoted v).1.askPrice.isNaN = false)
    {traded : List (Event Float)} (trading : Event.AllFrom .trading traded) :
    (s.step v).strategy.IsReady (told past ++ (s.preparation v ++ traded)) := by
  obtain ⟨hwindow, hknown, hpositive⟩ := Strategy.known_of_priced priced
  have hinformed := chronicle.informed.prepared v
  have hannounced : (s.prepared v).announced = true := hinformed.announced hknown
  have hcount := s.countP_preparation v
  rw [← chronicle.countP_told, hannounced] at hcount
  rw [Strategy.step_frame room]
  constructor
  · rw [← Strategy.config_prepared s v] at hwindow
    exact hwindow
  · exact hinformed.calibrated hknown
  · exact hknown
  · exact hpositive
  · rw [List.countP_append, List.countP_append, trading.countP_isWarmUp, Nat.add_zero]
    exact hcount

/-- No order is requested, and no side has a price, before the warm-up: whatever deeds of whatever
outcome there were before, when a step requests an order, a whole window of steps is recorded, a
calibration has succeeded, decay and volatility are known and the decay is positive, and the end of
the warm-up has been announced before the request. It is announced at most once ever. -/
theorem isReady_of_request (chronicle : Chronicle c past s v) :
    (told past).countP Event.isWarmUp ≤ 1 ∧
      (∀ before request failure after,
        (s.step v).events = before ++ .orderRequested request failure :: after →
          (s.step v).strategy.IsReady (told past ++ before)) ∧
      ∀ row, (s.step v).result = .ok row →
        (s.step v).strategy.IsReady (told past ++ (s.step v).events) ∨
          row.bidPrice.isNaN = true ∧ row.askPrice.isNaN = true := by
  refine ⟨?_, ?_, ?_⟩
  · rw [chronicle.countP_told]
    exact Bool.toNat_le _
  · intro before request failure after split
    have hmem : request ∈ Event.requests (s.step v).events := by
      rw [split]
      exact List.mem_filterMap.mpr
        ⟨.orderRequested request failure, List.mem_append_right _ List.mem_cons_self, rfl⟩
    obtain ⟨side, price, hquoted, -⟩ := Strategy.request_eq_of_mem hmem
    cases hr : s.history.refusal? with
    | some e =>
      rw [Strategy.step_of_refusal hr] at hmem
      cases hmem
    | none =>
      obtain ⟨traded, rfl, htraded⟩ := Strategy.exists_append_of_trading hr rfl split
      exact chronicle.isReady_of_priced hr (Quote.priced_of_on hquoted) htraded
  · intro row completed
    cases hr : s.history.refusal? with
    | some e =>
      rw [Strategy.step_of_refusal hr] at completed
      cases completed
    | none =>
      obtain ⟨-, hrow⟩ := Strategy.step_of_ok completed
      have hbid : row.bidPrice = (s.quoted v).1.bidPrice := by rw [hrow]; rfl
      have hask : row.askPrice = (s.quoted v).1.askPrice := by rw [hrow]; rfl
      rw [hbid, hask, Strategy.events_of_room hr]
      by_cases hpriced :
        (s.quoted v).1.bidPrice.isNaN = false ∨ (s.quoted v).1.askPrice.isNaN = false
      · exact .inl (chronicle.isReady_of_priced hr hpriced (s.allFrom_pass v))
      · rw [not_or, Bool.not_eq_false, Bool.not_eq_false] at hpriced
        exact .inr hpriced

/-- The third step on a short memory. The second fits a decay to equal counts and, run, announces
the end of the warm-up, but can quote nothing. The third fits counts that fall with the distance
and, run, requests a bid and an offer. -/
theorem isReady_of_request_falling :
    let venue : ReplayVenue Float := .falling
    let first := (Strategy.fresh Config.brief).step venue
    let next := (first.venue.elapse 100).2
    let second := first.strategy.step next
    let past := [Deed.step (Strategy.fresh Config.brief) venue, .step first.strategy next]
    let s := second.strategy
    let v := (second.venue.elapse 100).2
    Chronicle Config.brief past s v ∧ s.calibrations = 1 ∧
      (told past).countP Event.isWarmUp ≤ 1 ∧
      (∀ before request failure after,
        (s.step v).events = before ++ .orderRequested request failure :: after →
          (s.step v).strategy.IsReady (told past ++ before)) ∧
      ∀ row, (s.step v).result = .ok row →
        (s.step v).strategy.IsReady (told past ++ (s.step v).events) ∨
          row.bidPrice.isNaN = true ∧ row.askPrice.isNaN = true := by
  intro venue first next second past s v
  have hfirst : Chronicle Config.brief [.step (Strategy.fresh Config.brief) venue]
      first.strategy next :=
    .market (.step (.start venue Config.start_brief)) next
  have hchronicle : Chronicle Config.brief past s v := .market (.step hfirst) v
  have hroom : first.strategy.history.refusal?.isNone = true := by decide +kernel
  have hfitted : s.calibrations = 1 := by
    -- What the fit comes to decides over announcement and pass; that it succeeds can be evaluated.
    change (first.strategy.step next).strategy.calibrations = 1
    rw [Strategy.step_frame (Option.isNone_iff_eq_none.mp hroom)]
    show (first.strategy.observed next).1.recalibrated.1.calibrations = 1
    rw [Strategy.recalibrated, if_pos (by decide +kernel), Strategy.calibrations_calibrate]
    decide +kernel
  exact ⟨hchronicle, hfitted, hchronicle.isReady_of_request⟩

end Chronicle

end MarketMaking
