import MarketMaking.Proofs.Chronicle
import MarketMaking.Proofs.Market
import MarketMaking.Proofs.Stages
import MarketMaking.Venue.Replay

/-!
# The calibration schedule

Over a session of completed steps the attempts to calibrate are those of an arithmetic schedule: one
in every step whose number the cadence divides, from the first full window on, and one at the end of
the data when the last step made none. Each of them is fitted to the window of samples that ends
with its step, whatever the history has dropped.
-/

namespace MarketMaking

variable {R V : Type}

/-- The attempt to calibrate that an event tells of: its step, with the decay that was committed or
the reason why none was. -/
def Event.attempt? : Event R → Option (Nat × Except (Error R) (R × R))
  | calibrated step state .. => some (step, .ok (state.a, state.k))
  | calibratedUnusable step state _ => some (step, .ok (state.a, state.k))
  | calibrationSkipped step cause => some (step, .error cause)
  | _ => none

/-- The attempts to calibrate among some events, in their order. -/
def Event.attempts (events : List (Event R)) : List (Nat × Except (Error R) (R × R)) :=
  events.filterMap attempt?

namespace Event

@[simp] theorem attempts_append (xs ys : List (Event R)) :
    attempts (xs ++ ys) = attempts xs ++ attempts ys := List.filterMap_append

private theorem attempts_filter (events : List (Event R)) :
    attempts (events.filter (·.stage = .calibrating)) = attempts events := by
  rw [attempts, List.filterMap_filter, attempts]
  congr 1
  funext event
  cases event <;> rfl

end Event

open Event (attempts)

namespace Config

/-- Is an attempt to calibrate scheduled in step `i`? -/
def IsScheduled (c : Config R) (i : Nat) : Prop :=
  c.calibrationWindow ≤ i + 1 ∧ c.calibrationCadence ∣ i

instance (c : Config R) (i : Nat) : Decidable (c.IsScheduled i) :=
  inferInstanceAs (Decidable (_ ∧ _))

/-- The steps among the first `n` in which an attempt to calibrate is scheduled. -/
def scheduled (c : Config R) (n : Nat) : List Nat := (List.range n).filter (c.IsScheduled ·)

/-- The step in whose name an attempt is made at the end of the data, after `n` steps: the last one,
when its window is full and it made no attempt itself. -/
def closing (c : Config R) (n : Nat) : List Nat :=
  if c.calibrationWindow ≤ n ∧ ¬ c.calibrationCadence ∣ n - 1 then [n - 1] else []

/-- The attempt to calibrate in the name of step `i`: a fit to the window that ends with it. -/
def attempt [Scalar R] (c : Config R) (samples : List (Sample R)) (i : Nat) :
    Nat × Except (Error R) (R × R) :=
  (i, (c.calibrator.fitWindow ((windowAt samples c.calibrationWindow i).map Sample.depth)).map
    fun decay ↦ (decay.a, decay.k))

section Schedule

variable (c : Config R)

/-- The next step is scheduled behind the others, if it is. -/
theorem scheduled_succ (n : Nat) :
    c.scheduled (n + 1) = c.scheduled n ++ if c.IsScheduled n then [n] else [] := by
  rw [scheduled, List.range_succ, List.filter_append, scheduled]
  by_cases h : c.IsScheduled n <;> simp [h]

theorem mem_scheduled {n i : Nat} : i ∈ c.scheduled n ↔ i < n ∧ c.IsScheduled i := by
  rw [scheduled, List.mem_filter, List.mem_range, decide_eq_true_eq]

private theorem mem_closing {n i : Nat} :
    i ∈ c.closing n ↔ i = n - 1 ∧ c.calibrationWindow ≤ n ∧ ¬ c.calibrationCadence ∣ n - 1 := by
  unfold closing
  split <;> simp_all

/-- The attempts come in the order of their steps, each of them once. -/
theorem pairwise_schedule (n : Nat) : (c.scheduled n ++ c.closing n).Pairwise (· < ·) := by
  rw [List.pairwise_append]
  refine ⟨List.pairwise_lt_range.sublist List.filter_sublist, ?_, ?_⟩
  · unfold closing
    split
    · exact List.pairwise_singleton _ _
    · exact .nil
  · intro i scheduled j closing
    obtain ⟨hlt, -, hcadence⟩ := c.mem_scheduled.mp scheduled
    obtain ⟨rfl, -, hnot⟩ := c.mem_closing.mp closing
    have hne : i ≠ n - 1 := fun same ↦ hnot (same ▸ hcadence)
    omega

/-- Once there is a full window, the last step has an attempt. -/
theorem last_mem {n : Nat} (pos : 0 < n) (full : c.calibrationWindow ≤ n) :
    n - 1 ∈ c.scheduled n ++ c.closing n := by
  rw [List.mem_append, c.mem_scheduled, c.mem_closing, IsScheduled]
  by_cases hcadence : c.calibrationCadence ∣ n - 1
  · exact .inl ⟨by omega, by omega, hcadence⟩
  · exact .inr ⟨rfl, full, hcadence⟩

private theorem of_mem_schedule {n i : Nat} (pos : 0 < c.calibrationWindow)
    (mem : i ∈ c.scheduled n ++ c.closing n) : i < n ∧ c.calibrationWindow ≤ i + 1 := by
  rcases List.mem_append.mp mem with h | h
  · obtain ⟨hlt, hfull, -⟩ := c.mem_scheduled.mp h
    exact ⟨hlt, hfull⟩
  · obtain ⟨rfl, hfull, -⟩ := c.mem_closing.mp h
    omega

end Schedule

variable [Scalar R] {c : Config R} {samples : List (Sample R)} {i : Nat}

/-- An attempt stays what it was when more samples are taken. -/
theorem attempt_append (more : List (Sample R)) (lt : i < samples.length) :
    c.attempt (samples ++ more) i = c.attempt samples i := by
  rw [attempt, windowAt_append more lt, attempt]

end Config

/-! ### Attempts and their counts -/

/-- As many depths as the window has are fitted without a cut. -/
theorem Calibrator.fit_of_length_eq [Scalar R] {c : Calibrator R} {depths : List (Option R)}
    (eq : depths.length = c.window) : c.fit depths = c.fitWindow depths := by
  unfold fit
  rw [eq, if_neg (Nat.lt_irrefl _), Nat.sub_self, List.drop_zero]

namespace Strategy

section Attempts

variable [Scalar R] {s : Strategy R} {markets : List (Market R)} {i : Nat}

/-- An attempt to calibrate is told of once, with what the fit came to. -/
theorem attempts_calibrate (s : Strategy R) (i : Nat) :
    attempts (s.calibrate i).2 =
      [(i, (s.config.calibrator.fit (s.window.map Sample.depth)).map
        fun decay ↦ (decay.a, decay.k))] := by
  have hannounce (t : Strategy R) : attempts (t.announce i).2 = [] := by
    unfold announce
    split <;> rfl
  have hfit : (s.fitWindow i).2.attempt? =
      some (i, (s.config.calibrator.fit (s.window.map Sample.depth)).map
        fun decay ↦ (decay.a, decay.k)) := by
    unfold fitWindow
    split
    · next decay fitted =>
      rw [fitted]
      simp only [calibrationEvent]
      split <;> rfl
    · next cause failed =>
      rw [failed]
      rfl
  rw [calibrate_eq]
  show List.filterMap Event.attempt? ((s.fitWindow i).2 :: ((s.fitWindow i).1.announce i).2) = _
  rw [List.filterMap_cons_some hfit]
  exact congrArg _ (hannounce _)

private theorem counted_calibrate (s : Strategy R) (i : Nat) :
    (s.calibrate i).1.calibrations + (s.calibrate i).1.failedCalibrations =
      s.calibrations + s.failedCalibrations + (attempts (s.calibrate i).2).length := by
  rw [attempts_calibrate, calibrations_calibrate, failedCalibrations_calibrate]
  unfold fitWindow
  split
  · exact Nat.succ_add s.calibrations s.failedCalibrations
  · rfl

/-- The window that is fitted in the name of the last step is the one that ends with it. -/
theorem window_eq (records : s.history.Records markets s.config.calibrationWindow)
    (last : i + 1 = markets.length) :
    s.window = windowAt (Market.samples markets) s.config.calibrationWindow i :=
  records.last_eq last

/-- What the fit in the name of the last step comes to is what its attempt does. -/
theorem fit_eq (records : s.history.Records markets s.config.calibrationWindow)
    (last : i + 1 = markets.length) (full : s.config.calibrationWindow ≤ i + 1) :
    (s.config.calibrator.fit (s.window.map Sample.depth)).map (fun decay ↦ (decay.a, decay.k)) =
      (s.config.attempt (Market.samples markets) i).2 := by
  have hlength : (s.window.map Sample.depth).length = s.config.calibrator.window := by
    rw [window_eq records last, List.length_map, length_windowAt _ full]
    · rfl
    · rw [Market.length_samples]
      omega
  rw [Calibrator.fit_of_length_eq hlength, window_eq records last, Config.attempt]

private theorem attempts_calibrate_last
    (records : s.history.Records markets s.config.calibrationWindow)
    (last : i + 1 = markets.length) (full : s.config.calibrationWindow ≤ i + 1) :
    attempts (s.calibrate i).2 = [s.config.attempt (Market.samples markets) i] := by
  rw [attempts_calibrate, fit_eq records last full]
  rfl

/-- What is due by the history is what is scheduled. -/
theorem isDue_eq (records : s.history.Records markets s.config.calibrationWindow)
    (last : i + 1 = markets.length) :
    s.config.calibrator.isDue i s.history.size = decide (s.config.IsScheduled i) := by
  have hfull : s.config.calibrationWindow ≤ s.history.size ↔
      s.config.calibrationWindow ≤ i + 1 := by
    rw [records.le_size_iff, last]
  rw [Bool.eq_iff_iff]
  simp only [Calibrator.isDue, Config.calibrator, Config.IsScheduled, Bool.and_eq_true,
    decide_eq_true_eq, beq_iff_eq, hfull, Nat.dvd_iff_mod_eq_zero]

/-- A step that has recorded its market makes the attempt that is scheduled. -/
theorem recalibrated_eq (records : s.history.Records markets s.config.calibrationWindow)
    (last : s.steps + 1 = markets.length) :
    s.recalibrated = if s.config.IsScheduled s.steps then s.calibrate s.steps else (s, []) := by
  have hdue : s.isDue = decide (s.config.IsScheduled s.steps) := isDue_eq records last
  rw [recalibrated, hdue]
  simp only [decide_eq_true_eq]

/-- At the end of the data the attempt is made that closes the schedule. -/
theorem finish_eq (records : s.history.Records markets s.config.calibrationWindow)
    (steps : s.steps = markets.length) (pos : 0 < s.config.calibrationWindow) :
    s.finish =
      if s.config.calibrationWindow ≤ markets.length ∧
          ¬ s.config.calibrationCadence ∣ markets.length - 1 then
        s.calibrate (markets.length - 1)
      else (s, []) := by
  -- without a full window the last step is not asked for, and there may be none
  by_cases hfull : s.config.calibrationWindow ≤ markets.length
  · have hlast : markets.length - 1 + 1 = markets.length := by omega
    have hscheduled : s.config.IsScheduled (markets.length - 1) ↔
        s.config.calibrationCadence ∣ markets.length - 1 :=
      and_iff_right (hlast.symm ▸ hfull)
    have hpos : 0 < markets.length := by omega
    rw [finish, steps, isDue_eq records hlast]
    simp only [decide_eq_true (records.le_size_iff.mpr hfull), decide_eq_true hpos, Bool.true_and,
      hscheduled, hfull, true_and, Bool.not_eq_true', decide_eq_false_iff_not]
  · have hsize : ¬ s.config.calibrationWindow ≤ s.history.size := by
      rw [records.le_size_iff]
      exact hfull
    rw [finish, decide_eq_false hsize, Bool.false_and, Bool.false_and,
      if_neg Bool.false_ne_true, if_neg (fun h ↦ hfull h.1)]

private theorem attempts_recalibrated
    (records : s.history.Records markets s.config.calibrationWindow)
    (last : s.steps + 1 = markets.length) :
    attempts s.recalibrated.2 =
      (if s.config.IsScheduled s.steps then [s.steps] else []).map
        (s.config.attempt (Market.samples markets)) := by
  rw [recalibrated_eq records last]
  split
  · next h => exact attempts_calibrate_last records last h.1
  · rfl

private theorem attempts_finish (records : s.history.Records markets s.config.calibrationWindow)
    (steps : s.steps = markets.length) (pos : 0 < s.config.calibrationWindow) :
    attempts s.finish.2 =
      (s.config.closing markets.length).map (s.config.attempt (Market.samples markets)) := by
  rw [finish_eq records steps pos, Config.closing]
  split
  · exact attempts_calibrate_last records (by omega) (by omega)
  · rfl

private theorem counted_recalibrated (s : Strategy R) :
    s.recalibrated.1.calibrations + s.recalibrated.1.failedCalibrations =
      s.calibrations + s.failedCalibrations + (attempts s.recalibrated.2).length := by
  unfold recalibrated
  split
  · exact s.counted_calibrate s.steps
  · rfl

private theorem counted_finish (s : Strategy R) :
    s.finish.1.calibrations + s.finish.1.failedCalibrations =
      s.calibrations + s.failedCalibrations + (attempts s.finish.2).length := by
  unfold finish
  split
  · exact s.counted_calibrate (s.steps - 1)
  · rfl

end Attempts

section Steps

variable [Scalar R] [Venue V R] {s : Strategy R} {v : V} {markets : List (Market R)}

/-- The attempts in a recorded step are those of the calibration that is due. -/
theorem attempts_step (room : s.history.refusal? = none) (v : V) :
    attempts (s.step v).events = attempts (s.observed v).1.recalibrated.2 := by
  rw [← Event.attempts_filter, filter_calibrating room]

/-- The attempts in a step are counted, whatever comes of it. -/
theorem counted_step (s : Strategy R) (v : V) :
    (s.step v).strategy.calibrations + (s.step v).strategy.failedCalibrations =
      s.calibrations + s.failedCalibrations + (attempts (s.step v).events).length := by
  cases hr : s.history.refusal? with
  | some e =>
    rw [step_of_refusal hr]
    rfl
  | none =>
    rw [attempts_step hr, step_frame hr]
    exact (s.observed v).1.counted_recalibrated

/-- A completed step was recorded, and is counted. -/
theorem of_completed (completed : (s.step v).result.isOk = true) :
    s.history.refusal? = none ∧ (s.step v).strategy.steps = s.steps + 1 := by
  cases hr : s.history.refusal? with
  | some e =>
    rw [step_of_refusal hr] at completed
    cases completed
  | none =>
    rw [step_of_room hr] at completed ⊢
    refine ⟨rfl, ?_⟩
    cases hp : (s.pass v).result with
    | error e =>
      rw [hp] at completed
      cases completed
    | ok r => exact congrArg (· + 1) (steps_prepared s v)

/-- A recorded step records the market at its venue. -/
theorem records_step (room : s.history.refusal? = none)
    (records : s.history.Records markets s.config.calibrationWindow) (v : V) :
    (s.step v).strategy.history.Records (markets ++ [Venue.market v])
      s.config.calibrationWindow := by
  rw [step_frame room]
  show (s.prepared v).history.Records _ _
  rw [history_prepared]
  exact records.add (Venue.market v)

end Steps

end Strategy

/-! ### Chronicles -/

variable [Scalar R] [Venue V R]

/-- The market of a step. -/
def Deed.market? : Deed R V → Option (Market R)
  | step _ v => some (Venue.market v)
  | finish _ => none

/-- The markets of all steps, in order. -/
def marketsOf (past : List (Deed R V)) : List (Market R) := past.filterMap Deed.market?

@[simp] theorem marketsOf_step (past : List (Deed R V)) (s : Strategy R) (v : V) :
    marketsOf (past ++ [.step s v]) = marketsOf past ++ [Venue.market v] := List.filterMap_append

namespace Chronicle

variable {c : Config R} {past : List (Deed R V)} {s : Strategy R} {v : V}

/-- Every attempt to calibrate is counted, whatever has been done. -/
theorem counted (chronicle : Chronicle c past s v) :
    s.calibrations + s.failedCalibrations = (attempts (told past)).length := by
  induction chronicle with
  | start v started =>
    obtain ⟨-, rfl⟩ := Strategy.start_eq_ok_iff.mp started
    rfl
  | market _ w ih => exact ih
  | @step past s v _ ih =>
    rw [told_append, told_singleton, Event.attempts_append, List.length_append, ← ih]
    exact s.counted_step v
  | @finish past s v _ ih =>
    rw [told_append, told_singleton, Event.attempts_append, List.length_append, ← ih]
    exact s.counted_finish

/-- After completed steps only, the history has recorded their markets, and all of them are
counted. -/
theorem records (chronicle : Chronicle c past s v)
    (completed : ∀ deed ∈ past, deed.isCompleted = true) :
    s.history.Records (marketsOf past) c.calibrationWindow ∧
      (marketsOf past).length = past.length ∧ s.steps = past.length := by
  have hcapacity := chronicle.accepted.capacity
  refine chronicle.completed_induction completed ?_ ?_
  · exact ⟨ArrivalHistory.records_empty _ hcapacity, rfl, rfl⟩
  · rintro past s v chronicle - done ⟨hrecords, hlength, hsteps⟩
    obtain ⟨hroom, hcount⟩ := Strategy.of_completed done
    rw [← chronicle.config_eq] at hrecords ⊢
    rw [marketsOf_step, List.length_append, List.length_append, hlength, hcount, hsteps]
    exact ⟨Strategy.records_step hroom hrecords v, rfl, rfl⟩

/-- After completed steps only, the next step records its market behind theirs. -/
theorem records_observed (chronicle : Chronicle c past s v)
    (completed : ∀ deed ∈ past, deed.isCompleted = true) :
    (s.observed v).1.history.Records (marketsOf past ++ [Venue.market v]) c.calibrationWindow ∧
      s.steps + 1 = (marketsOf past ++ [Venue.market v]).length := by
  obtain ⟨hrecords, hlength, hsteps⟩ := chronicle.records completed
  refine ⟨hrecords.add (Venue.market v), ?_⟩
  rw [List.length_append, hlength, hsteps]
  rfl

/-- After completed steps only, the attempts to calibrate were those of the schedule. -/
theorem attempts_told (chronicle : Chronicle c past s v)
    (completed : ∀ deed ∈ past, deed.isCompleted = true) :
    attempts (told past) =
      (c.scheduled past.length).map (c.attempt (Market.samples (marketsOf past))) := by
  refine chronicle.completed_induction completed rfl ?_
  intro past s v chronicle completed done ih
  obtain ⟨-, hlength, hsteps⟩ := chronicle.records completed
  obtain ⟨hrecords, hlast⟩ := chronicle.records_observed completed
  obtain ⟨hroom, -⟩ := Strategy.of_completed done
  -- the attempts so far do not see the new market
  have hbefore : (c.scheduled past.length).map (c.attempt (Market.samples (marketsOf past))) =
      (c.scheduled past.length).map
        (c.attempt (Market.samples (marketsOf past ++ [Venue.market v]))) := by
    refine List.map_congr_left fun i mem ↦ ?_
    rw [Market.samples_append, Config.attempt_append]
    rw [Market.length_samples, hlength]
    exact (c.mem_scheduled.mp mem).1
  have hnow : attempts (s.step v).events =
      (if c.IsScheduled past.length then [past.length] else []).map
        (c.attempt (Market.samples (marketsOf past ++ [Venue.market v]))) := by
    rw [← chronicle.config_eq] at hrecords ⊢
    rw [Strategy.attempts_step hroom, ← hsteps]
    exact Strategy.attempts_recalibrated hrecords hlast
  rw [told_append, told_singleton, Event.attempts_append, ih, marketsOf_step, List.length_append,
    List.length_singleton, Config.scheduled_succ, List.map_append, hbefore]
  exact congrArg _ hnow

/-- After completed steps only, the attempt at the end of the data is the closing one of the
schedule. -/
theorem attempts_finish (chronicle : Chronicle c past s v)
    (completed : ∀ deed ∈ past, deed.isCompleted = true) :
    attempts s.finish.2 =
      (c.closing past.length).map (c.attempt (Market.samples (marketsOf past))) := by
  have hpos := chronicle.accepted.window_pos
  obtain ⟨hrecords, hlength, hsteps⟩ := chronicle.records completed
  rw [← chronicle.config_eq] at hrecords hpos ⊢
  rw [← hlength] at hsteps ⊢
  exact Strategy.attempts_finish hrecords hsteps hpos

/-- Over any number of completed steps and the end of the data behind them, the attempts to
calibrate are those of the schedule, in the order of their steps, and each of them is fitted to the
full window of samples that ends with its step. All of them are counted, and once there is a full
window the last step has exactly one. -/
theorem attempts_on_schedule (chronicle : Chronicle c past s v)
    (completed : ∀ deed ∈ past, deed.isCompleted = true) :
    let n := past.length
    let samples := Market.samples (marketsOf past)
    attempts (told past) = (c.scheduled n).map (c.attempt samples) ∧
      attempts s.finish.2 = (c.closing n).map (c.attempt samples) ∧
      (c.scheduled n ++ c.closing n).Pairwise (· < ·) ∧
      (∀ i ∈ c.scheduled n ++ c.closing n,
        i < n ∧ (windowAt samples c.calibrationWindow i).length = c.calibrationWindow) ∧
      s.finish.1.summary.calibrations + s.finish.1.summary.failedCalibrations =
        (c.scheduled n ++ c.closing n).length ∧
      (c.calibrationWindow ≤ n → (c.scheduled n ++ c.closing n).count (n - 1) = 1) := by
  intro n samples
  have hpos := chronicle.accepted.window_pos
  have hlength : samples.length = n := by
    rw [Market.length_samples]
    exact (chronicle.records completed).2.1
  have htold := chronicle.attempts_told completed
  have hfinish := chronicle.attempts_finish completed
  have hpairwise := c.pairwise_schedule n
  refine ⟨htold, hfinish, hpairwise, ?_, ?_, ?_⟩
  · intro i mem
    obtain ⟨hlt, hfull⟩ := c.of_mem_schedule hpos mem
    exact ⟨hlt, length_windowAt (hlength.symm ▸ hlt) hfull⟩
  · have hcounted := s.counted_finish
    rw [chronicle.counted, htold, hfinish, List.length_map, List.length_map] at hcounted
    rw [List.length_append]
    exact hcounted
  · intro hfull
    have hnodup : (c.scheduled n ++ c.closing n).Nodup := hpairwise.imp Nat.ne_of_lt
    rw [hnodup.count, if_pos (c.last_mem (by omega) hfull)]

/-- Four steps on a short memory with a calibration at every second step: one attempt in the third
step, and one at the end of the data, for the fourth step, by which a sample was dropped. -/
theorem attempts_on_schedule_short :
    let c := { Config.brief with calibrationCadence := 2 }
    let quiet : ReplayVenue Float := ReplayVenue.idle 100 101 0.5
    let traded := ((quiet.push ⟨100, 101, [⟨.buy, 51, 1⟩]⟩).elapse 100).2
    let venues := [quiet, quiet, quiet, traded]
    let past := (Strategy.fresh c).stepsAt venues
    let s := (Strategy.fresh c).after venues
    let samples := Market.samples (marketsOf past)
    (∀ deed ∈ past, deed.isCompleted = true) ∧ s.history.dropped = 1 ∧
      attempts (told past) = [c.attempt samples 2] ∧
      attempts s.finish.2 = [c.attempt samples 3] ∧
      s.finish.1.summary.calibrations + s.finish.1.summary.failedCalibrations = 2 := by
  intro c quiet traded venues past s samples
  obtain ⟨v, hchronicle⟩ : ∃ v, Chronicle c past s v :=
    Chronicle.of_stepsAt (by decide +kernel) quiet venues
  have hcompleted : ∀ deed ∈ past, deed.isCompleted = true := by decide +kernel
  have hscheduled : c.scheduled past.length = [2] := by decide
  have hclosing : c.closing past.length = [3] := by decide
  obtain ⟨htold, hfinish, -, -, hcount, -⟩ := hchronicle.attempts_on_schedule hcompleted
  rw [hscheduled] at htold hcount
  rw [hclosing] at hfinish hcount
  exact ⟨hcompleted, by decide +kernel, htold, hfinish, hcount⟩

end Chronicle

end MarketMaking
