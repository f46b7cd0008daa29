import MarketMaking.Proofs.Pass
import MarketMaking.Proofs.Step

/-!
# Which stage an event comes from

Every event of a step comes from one of its stages: recording the market, calibrating, computing a
quote, passing over the orders. An event tells its stage, so what is said of the events of one kind
in a step is said of one stage.
-/

namespace MarketMaking

variable {R V : Type}

namespace Event

/-- The parts of a session that events come from. -/
inductive Stage where
  | recording
  | calibrating
  | quoting
  | trading
  | ending
  deriving DecidableEq

/-- The part of a session that this event comes from. -/
def stage : Event R → Stage
  | historyCompacted .. => .recording
  | calibrated .. | calibratedUnusable .. | calibrationSkipped .. | warmedUp .. => .calibrating
  | quotingSuppressed .. => .quoting
  | cancelRequested .. | orderRequested .. => .trading
  | runFinished .. => .ending

/-- Do all these events come from `stage`? -/
def AllFrom (stage : Stage) (events : List (Event R)) : Prop :=
  ∀ event ∈ events, event.stage = stage

section AllFrom

variable {stage other : Stage} {xs ys : List (Event R)}

theorem AllFrom.append (hx : AllFrom stage xs) (hy : AllFrom stage ys) :
    AllFrom stage (xs ++ ys) := by
  intro event mem
  rcases List.mem_append.mp mem with h | h
  · exact hx event h
  · exact hy event h

private theorem AllFrom.filter_eq_self (all : AllFrom stage xs) : xs.filter
    (·.stage = stage) = xs :=
  List.filter_eq_self.mpr fun event mem ↦ decide_eq_true (all event mem)

/-- No event of a stage is kept when those of another one are. -/
theorem AllFrom.filter_eq_nil (all : AllFrom stage xs) (ne : stage ≠ other) :
    xs.filter (·.stage = other) = [] := by
  rw [List.filter_eq_nil_iff]
  intro event mem same
  exact ne ((all event mem).symm.trans (of_decide_eq_true same))

/-- Events of a kind that comes from one stage are counted in that stage. -/
theorem countP_filter_stage {p : Event R → Bool} (kind : ∀ event, p event → event.stage = stage)
    (events : List (Event R)) : (events.filter (·.stage = stage)).countP p = events.countP p := by
  rw [List.countP_filter]
  refine List.countP_congr fun event _ ↦ ?_
  rw [Bool.and_eq_true, decide_eq_true_eq]
  exact and_iff_left_of_imp (kind event)

/-- Events of a kind that comes from one stage do not come from another one. -/
theorem AllFrom.countP_eq_zero {p : Event R → Bool} (all : AllFrom other xs)
    (kind : ∀ event, p event → event.stage = stage) (ne : other ≠ stage) : xs.countP p = 0 := by
  rw [← countP_filter_stage kind, all.filter_eq_nil ne]
  rfl

end AllFrom

end Event

open Event (AllFrom)

variable [Scalar R]

/-! ### Calibrating -/

namespace Strategy

/-- An attempt to calibrate has events of its stage only. -/
theorem allFrom_calibrate (s : Strategy R) (step : Nat) :
    AllFrom .calibrating (s.calibrate step).2 := by
  have hfit : (s.fitWindow step).2.stage = .calibrating := by
    unfold fitWindow
    split
    · simp only [calibrationEvent]
      split <;> rfl
    · rfl
  have hannounce (t : Strategy R) : AllFrom .calibrating (t.announce step).2 := by
    unfold announce
    split
    · rintro event (_ | ⟨_, _ | _⟩)
      rfl
    · rintro event (_ | _)
  rw [calibrate_eq]
  rintro event (_ | ⟨_, mem⟩)
  · exact hfit
  · exact hannounce _ event mem

private theorem allFrom_recalibrated (s : Strategy R) : AllFrom .calibrating s.recalibrated.2 := by
  unfold recalibrated
  split
  · exact s.allFrom_calibrate s.steps
  · rintro event (_ | _)

end Strategy

/-! ### Trading -/

variable [Venue V R]

namespace OrderLimits

omit [Scalar R] in
private theorem allFrom_cancelAll (ids : List OrderId) (v : V) :
    AllFrom .trading (cancelAll ids v).events := by
  intro event mem
  obtain ⟨id, -, accepted, rfl⟩ := exists_of_mem_cancelAll mem
  rfl

private theorem allFrom_placeSide (limits : OrderLimits R) (q : Quote R) (tick position : R)
    (side : Side) (v : V) : AllFrom .trading (limits.placeSide q tick position side v).events := by
  cases hmissing : limits.missing? q tick position side v with
  | none =>
    rw [placeSide_of_missing?_eq_none hmissing]
    rintro event (_ | _)
  | some request =>
    rw [placeSide_of_missing?_eq_some hmissing]
    rintro event (_ | ⟨_, _ | _⟩)
    rfl

/-- A pass over the orders is trading. -/
theorem allFrom_reconcile (limits : OrderLimits R) (q : Quote R) (v : V) :
    AllFrom .trading (limits.reconcile q v).events := by
  have hcancels : AllFrom .trading (cancels q v).events := allFrom_cancelAll _ _
  have hbid : AllFrom .trading (limits.bidPass q v).events := limits.allFrom_placeSide q _ _ _ _
  cases hresult : (limits.bidPass q v).result with
  | error e =>
    rw [reconcile_of_bid_error hresult]
    exact hcancels.append hbid
  | ok placed =>
    rw [reconcile_of_bid_ok hresult]
    exact (hcancels.append hbid).append (limits.allFrom_placeSide q _ _ _ _)

end OrderLimits

/-! ### Steps -/

namespace Strategy

variable {s : Strategy R}

/-- The pass of a step is trading. -/
theorem allFrom_pass (s : Strategy R) (v : V) : AllFrom .trading (s.pass v).events :=
  OrderLimits.allFrom_reconcile _ _ _

/-- The events of a recorded step are those of its preparation and those of its pass. -/
theorem events_of_room (room : s.history.refusal? = none) (v : V) :
    (s.step v).events = s.preparation v ++ (s.pass v).events := by
  rw [step_of_room room]
  cases (s.pass v).result <;> rfl

/-- The events of a stage in the preparation of a step: of recording, of calibrating, of quoting. -/
theorem filter_preparation (s : Strategy R) (v : V) (stage : Event.Stage) :
    (s.preparation v).filter (·.stage = stage) = match stage with
      | .recording => (s.observed v).2
      | .calibrating => (s.observed v).1.recalibrated.2
      | .quoting => (s.quoted v).2
      | _ => [] := by
  have hrecording : AllFrom .recording (s.observed v).2 := by
    unfold observed observe
    simp only
    split
    · rintro event (_ | _)
    · rintro event (_ | ⟨_, _ | _⟩)
      rfl
  have hcalibrating := (s.observed v).1.allFrom_recalibrated
  have hquoting : AllFrom .quoting (s.quoted v).2 := by
    unfold quoted quotation
    split
    · split
      · rintro event (_ | _)
      · rintro event (_ | ⟨_, _ | _⟩)
        rfl
    · rintro event (_ | _)
  unfold preparation
  rw [List.filter_append, List.filter_append]
  cases stage with
  | recording =>
    rw [hrecording.filter_eq_self, hcalibrating.filter_eq_nil (by decide),
      hquoting.filter_eq_nil (by decide), List.append_nil, List.append_nil]
  | calibrating =>
    rw [hrecording.filter_eq_nil (by decide), hcalibrating.filter_eq_self,
      hquoting.filter_eq_nil (by decide), List.nil_append, List.append_nil]
  | quoting =>
    rw [hrecording.filter_eq_nil (by decide), hcalibrating.filter_eq_nil (by decide),
      hquoting.filter_eq_self, List.nil_append, List.nil_append]
  | trading | ending =>
    rw [hrecording.filter_eq_nil (by decide), hcalibrating.filter_eq_nil (by decide),
      hquoting.filter_eq_nil (by decide)]
    rfl

/-- What comes before a trading event of a recorded step is its preparation and then trading. -/
theorem exists_append_of_trading (room : s.history.refusal? = none) {v : V}
    {before after : List (Event R)} {event : Event R} (trading : event.stage = .trading)
    (split : (s.step v).events = before ++ event :: after) :
    ∃ traded, before = s.preparation v ++ traded ∧ AllFrom .trading traded := by
  have hprepared : event ∉ s.preparation v := by
    intro mem
    have hmem : event ∈ (s.preparation v).filter (·.stage = .trading) :=
      List.mem_filter.mpr ⟨mem, decide_eq_true trading⟩
    rw [filter_preparation] at hmem
    cases hmem
  rw [events_of_room room] at split
  rcases List.append_eq_append_iff.mp split with ⟨traded, hbefore, hrest⟩ | ⟨rest, hprep, hrest⟩
  · refine ⟨traded, hbefore, fun other mem ↦ s.allFrom_pass v other ?_⟩
    rw [hrest]
    exact List.mem_append_left _ mem
  · cases rest with
    | nil =>
      rw [List.append_nil] at hprep
      exact ⟨[], by rw [List.append_nil, hprep], fun _ mem ↦ by cases mem⟩
    | cons other rest =>
      have hsame : event = other := (List.cons.inj hrest).1
      rw [hprep, hsame] at hprepared
      exact absurd (List.mem_append_right _ List.mem_cons_self) hprepared

/-- The calibration events of a recorded step are those of the calibration that is due. -/
theorem filter_calibrating (room : s.history.refusal? = none) (v : V) :
    (s.step v).events.filter (·.stage = .calibrating) = (s.observed v).1.recalibrated.2 := by
  rw [events_of_room room, List.filter_append, filter_preparation,
    (s.allFrom_pass v).filter_eq_nil (by decide), List.append_nil]

/-- The trading events of a recorded step are those of its pass over the orders. -/
theorem filter_trading (room : s.history.refusal? = none) (v : V) :
    (s.step v).events.filter (·.stage = .trading) = (s.pass v).events := by
  rw [events_of_room room, List.filter_append, filter_preparation,
    (s.allFrom_pass v).filter_eq_self, List.nil_append]

end Strategy

end MarketMaking
