import MarketMaking.Proofs.Schedule
import Mathlib.Data.List.Basic

/-!
# What a session has committed

The state of a session of completed steps follows from its schedule of attempts to calibrate. The
decay and its step are those of the last attempt whose fit succeeded. The volatility is that of the
same window when there is an estimate over it. There is none when the deviation leaves the number
range with its normalization: then a decay is committed beside the volatility of an earlier window,
or beside none.
-/

namespace MarketMaking

variable {R V : Type} [Scalar R]

namespace Config

variable {c : Config R} {samples : List (Sample R)} {i : Nat}

/-- Does the fit in the name of step `i` succeed? -/
def fits (c : Config R) (samples : List (Sample R)) (i : Nat) : Bool :=
  (c.attempt samples i).2.isOk

/-- The estimate of the volatility over the window that ends with step `i`, if there is one. -/
def volatilityAt (c : Config R) (samples : List (Sample R)) (i : Nat) : Option R :=
  Volatility.estimate c.calibrationWindow c.volatilityNormalization
    ((windowAt samples c.calibrationWindow i).map Sample.change)

/-- The deviation of the changes over the window that ends with step `i`, in the unit of quotes. -/
def deviationAt (c : Config R) (samples : List (Sample R)) (i : Nat) : R :=
  Scalar.sqrt (Volatility.variance (Volatility.usable
    ((windowAt samples c.calibrationWindow i).map Sample.change))) * c.volatilityNormalization

private theorem fits_append (more : List (Sample R)) (lt : i < samples.length) :
    c.fits (samples ++ more) i = c.fits samples i := by
  rw [fits, attempt_append more lt, fits]

private theorem volatilityAt_append (more : List (Sample R)) (lt : i < samples.length) :
    c.volatilityAt (samples ++ more) i = c.volatilityAt samples i := by
  rw [volatilityAt, windowAt_append more lt, volatilityAt]

end Config

/-! ### When there is no estimate -/

/-- Nothing is fitted to a window without a depth. -/
theorem Calibrator.exists_depth_of_isOk {c : Calibrator R} {depths : List (Option R)}
    (fitted : (c.fitWindow depths).isOk = true) : ∃ depth ∈ depths, depth.isSome = true := by
  by_contra hnone
  have hretained : Histogram.retained c.histogramBuckets depths = [] := by
    refine List.filterMap_eq_nil_iff.mpr fun depth mem ↦ ?_
    cases depth with
    | none => rfl
    | some d => exact absurd ⟨some d, mem, rfl⟩ hnone
  have hcounts : Histogram.cumulative c.histogramBuckets depths = [] := by
    rw [Histogram.cumulative, hretained]
    rfl
  have hpoints : (c.points ([] : List Nat)).length < 2 := by
    rw [Calibrator.points, List.take_nil]
    exact Nat.two_pos
  unfold fitWindow at fitted
  simp only [hcounts, if_pos hpoints] at fitted
  cases fitted

private theorem Volatility.mem_usable {changes : List (Option R)} {change : R} :
    change ∈ usable changes ↔ some change ∈ changes ∧ Scalar.isFinite change = true := by
  rw [usable, List.mem_filterMap]
  constructor
  · rintro ⟨_ | x, mem, hx⟩
    · cases hx
    · change (if Scalar.isFinite x then some x else none) = some change at hx
      split at hx
      · next finite =>
        cases hx
        exact ⟨mem, finite⟩
      · cases hx
  · rintro ⟨mem, finite⟩
    exact ⟨some change, mem, if_pos finite⟩

/-- With a usable change only the range of numbers can stand against an estimate. -/
theorem Volatility.estimate_eq_none_iff {window : Nat} {normalization change : R}
    {changes : List (Option R)} (short : changes.length ≤ window) (mem : change ∈ usable changes) :
    estimate window normalization changes = none ↔
      Scalar.isFinite (Scalar.sqrt (variance (usable changes)) * normalization) = false := by
  rw [estimate, Nat.sub_eq_zero_of_le short, List.drop_zero]
  cases husable : usable changes with
  | nil =>
    rw [husable] at mem
    cases mem
  | cons x xs =>
    simp only [Scalar.finite?]
    split <;> simp_all

/-- Where all changes are finite, a fit that succeeds lacks an estimate of the volatility exactly
when the deviation leaves the number range with its normalization. -/
theorem Config.volatilityAt_eq_none_iff {c : Config R} {markets : List (Market R)} {i : Nat}
    (fitted : c.fits (Market.samples markets) i = true)
    (finite : ∀ sample ∈ Market.samples markets, ∀ change, sample.change = some change →
      Scalar.isFinite change = true) :
    c.volatilityAt (Market.samples markets) i = none ↔
      Scalar.isFinite (c.deviationAt (Market.samples markets) i) = false := by
  have hfitted : (c.calibrator.fitWindow ((windowAt (Market.samples markets)
      c.calibrationWindow i).map Sample.depth)).isOk = true := by
    rw [fits, attempt] at fitted
    revert fitted
    cases c.calibrator.fitWindow _ with
    | error e => exact id
    | ok decay => exact fun _ ↦ rfl
  obtain ⟨depth, hmem, hdepth⟩ := Calibrator.exists_depth_of_isOk hfitted
  obtain ⟨sample, hwindow, rfl⟩ := List.mem_map.mp hmem
  have hsample : sample ∈ Market.samples markets :=
    List.mem_of_mem_take (List.mem_of_mem_drop hwindow)
  obtain ⟨change, hchange⟩ :=
    Option.isSome_iff_exists.mp (Market.change_isSome_of_mem hsample hdepth)
  refine Volatility.estimate_eq_none_iff ?_ (Volatility.mem_usable.mpr
    ⟨List.mem_map.mpr ⟨sample, hwindow, hchange⟩, finite sample hsample change hchange⟩)
  rw [List.length_map, windowAt, List.length_drop, List.length_take]
  omega

namespace Calibration

/-- The state that attempts in the names of these steps leave behind: the decay of the last one
whose fit succeeded, and the last volatility that any of those estimated. -/
structure CommittedBy (state : Calibration R) (c : Config R) (samples : List (Sample R))
    (attempts : List Nat) : Prop where
  fittedAt : state.fittedAt = (attempts.filter (c.fits samples)).getLast?
  unknown : state.fittedAt = none → state = Calibration.unknown
  decay : ∀ i, state.fittedAt = some i → (c.attempt samples i).2 = .ok (state.a, state.k)
  /-- Of an earlier window than the decay, when there is no estimate over that of the decay. -/
  volatility : state.volatility =
    ((attempts.filter (c.fits samples)).filterMap (c.volatilityAt samples)).getLast?.getD
      Scalar.nan

/-- Nothing was ever committed, or decay and volatility belong to one window. -/
def IsOfOneWindow (state : Calibration R) (c : Config R) (samples : List (Sample R)) : Prop :=
  (state.fittedAt = none ∧ state = Calibration.unknown) ∨
    ∃ i, state.fittedAt = some i ∧ (c.attempt samples i).2 = .ok (state.a, state.k) ∧
      c.volatilityAt samples i = some state.volatility

private theorem not_isOfOneWindow {state : Calibration R} {c : Config R} {samples : List (Sample R)}
    {i : Nat} (fitted : state.fittedAt = some i) (missing : c.volatilityAt samples i = none) :
    ¬ state.IsOfOneWindow c samples := by
  rintro (⟨hnone, -⟩ | ⟨j, hsome, -, hestimate⟩)
  · rw [fitted] at hnone
    cases hnone
  · obtain rfl : i = j := Option.some.inj (fitted.symm.trans hsome)
    rw [missing] at hestimate
    cases hestimate

section CommittedBy

variable {state : Calibration R} {c : Config R} {samples : List (Sample R)} {attempts : List Nat}
  {i : Nat}

private theorem committedBy_nil (c : Config R) (samples : List (Sample R)) :
    Calibration.unknown.CommittedBy c samples [] where
  fittedAt := rfl
  unknown := fun _ ↦ rfl
  decay := fun i fitted ↦ by cases fitted
  volatility := rfl

namespace CommittedBy

/-- An attempt that fails leaves the state as it was. -/
theorem skip (committed : state.CommittedBy c samples attempts)
    (failed : c.fits samples i = false) : state.CommittedBy c samples (attempts ++ [i]) := by
  have hfilter : (attempts ++ [i]).filter (c.fits samples) = attempts.filter (c.fits samples) := by
    rw [List.filter_append, List.filter_cons_of_neg (Bool.eq_false_iff.mp failed), List.filter_nil,
      List.append_nil]
  exact ⟨by rw [hfilter]; exact committed.fittedAt, committed.unknown, committed.decay,
    by rw [hfilter]; exact committed.volatility⟩

/-- An attempt that succeeds commits its decay, and its volatility if it has one. -/
theorem commit {a k : R} (committed : state.CommittedBy c samples attempts)
    (fitted : (c.attempt samples i).2 = .ok (a, k)) :
    CommittedBy ⟨a, k, (c.volatilityAt samples i).getD state.volatility, some i⟩ c samples
      (attempts ++ [i]) := by
  have hfits : c.fits samples i = true := by
    rw [Config.fits, fitted]
    rfl
  have hfilter : (attempts ++ [i]).filter (c.fits samples) =
      attempts.filter (c.fits samples) ++ [i] := by
    rw [List.filter_append, List.filter_cons_of_pos hfits, List.filter_nil]
  constructor
  · rw [hfilter, List.getLast?_concat]
  · intro unfitted
    cases unfitted
  · rintro _ ⟨⟩
    exact fitted
  · rw [hfilter, List.filterMap_append]
    cases hestimate : c.volatilityAt samples i with
    | none =>
      rw [List.filterMap_cons_none hestimate, List.filterMap_nil, List.append_nil]
      exact committed.volatility
    | some volatility =>
      rw [List.filterMap_cons_some hestimate, List.filterMap_nil, List.getLast?_concat]
      rfl

/-- What was committed does not depend on samples that are taken later. -/
theorem append (committed : state.CommittedBy c samples attempts)
    (taken : ∀ i ∈ attempts, i < samples.length) (more : List (Sample R)) :
    state.CommittedBy c (samples ++ more) attempts := by
  have hfilter : attempts.filter (c.fits (samples ++ more)) = attempts.filter (c.fits samples) :=
    List.filter_congr fun i mem ↦ Config.fits_append more (taken i mem)
  have htaken : ∀ i ∈ attempts.filter (c.fits samples), i < samples.length :=
    fun i mem ↦ taken i (List.mem_filter.mp mem).1
  constructor
  · rw [hfilter]
    exact committed.fittedAt
  · exact committed.unknown
  · intro i fitted
    have hmem : i ∈ attempts.filter (c.fits samples) :=
      List.mem_of_getLast? (committed.fittedAt.symm.trans fitted)
    rw [Config.attempt_append more (htaken i hmem)]
    exact committed.decay i fitted
  · rw [hfilter, List.filterMap_congr fun i mem ↦ Config.volatilityAt_append more (htaken i mem)]
    exact committed.volatility

/-- When every fit that succeeds comes with an estimate of the volatility, decay and volatility
belong to one window. -/
theorem isOfOneWindow (committed : state.CommittedBy c samples attempts)
    (estimated : ∀ i ∈ attempts, c.fits samples i = true → c.volatilityAt samples i ≠ none) :
    state.IsOfOneWindow c samples := by
  cases hfitted : state.fittedAt with
  | none => exact .inl ⟨hfitted, committed.unknown hfitted⟩
  | some i =>
    have hlast := committed.fittedAt.symm.trans hfitted
    obtain ⟨hmem, hfits⟩ := List.mem_filter.mp (List.mem_of_getLast? hlast)
    obtain ⟨volatility, hestimate⟩ := Option.ne_none_iff_exists'.mp (estimated i hmem hfits)
    obtain ⟨earlier, hearlier⟩ := List.getLast?_eq_some_iff.mp hlast
    have hvolatility : state.volatility = volatility := by
      rw [committed.volatility, hearlier, List.filterMap_append,
        List.filterMap_cons_some hestimate, List.filterMap_nil, List.getLast?_concat]
      rfl
    exact .inr ⟨i, hfitted, committed.decay i hfitted, by rw [hvolatility, hestimate]⟩

end CommittedBy

end CommittedBy

end Calibration

namespace Strategy

variable {s : Strategy R} {markets : List (Market R)} {attempts : List Nat} {i : Nat}

private theorem committed_calibrate (records : s.history.Records markets s.config.calibrationWindow)
    (last : i + 1 = markets.length) (full : s.config.calibrationWindow ≤ i + 1)
    (committed : s.calibration.CommittedBy s.config (Market.samples markets) attempts) :
    (s.calibrate i).1.calibration.CommittedBy s.config (Market.samples markets)
      (attempts ++ [i]) := by
  have hfit := fit_eq records last full
  rw [calibration_calibrate]
  unfold fitWindow
  split
  · next decay fitted =>
    rw [fitted] at hfit
    have hestimate : Volatility.estimate s.config.calibrationWindow
        s.config.volatilityNormalization (s.window.map Sample.change) =
          s.config.volatilityAt (Market.samples markets) i := by
      rw [window_eq records last, Config.volatilityAt]
    simp only [hestimate]
    exact committed.commit hfit.symm
  · next cause failed =>
    rw [failed] at hfit
    exact committed.skip (by rw [Config.fits, ← hfit]; rfl)

private theorem committed_recalibrated
    (records : s.history.Records markets s.config.calibrationWindow)
    (last : s.steps + 1 = markets.length)
    (committed : s.calibration.CommittedBy s.config (Market.samples markets)
      (s.config.scheduled s.steps)) :
    s.recalibrated.1.calibration.CommittedBy s.config (Market.samples markets)
      (s.config.scheduled (s.steps + 1)) := by
  rw [recalibrated_eq records last, Config.scheduled_succ]
  split
  · next h => exact committed_calibrate records last h.1 committed
  · rw [List.append_nil]
    exact committed

private theorem committed_finish (records : s.history.Records markets s.config.calibrationWindow)
    (steps : s.steps = markets.length) (pos : 0 < s.config.calibrationWindow)
    (committed : s.calibration.CommittedBy s.config (Market.samples markets) attempts) :
    s.finish.1.calibration.CommittedBy s.config (Market.samples markets)
      (attempts ++ s.config.closing markets.length) := by
  rw [finish_eq records steps pos, Config.closing]
  split
  · exact committed_calibrate records (by omega) (by omega) committed
  · rw [List.append_nil]
    exact committed

end Strategy

namespace Chronicle

variable [Venue V R] {c : Config R} {past : List (Deed R V)} {s : Strategy R} {v : V}

/-- After completed steps only, the state is what the attempts of the schedule have committed. -/
theorem committed (chronicle : Chronicle c past s v)
    (completed : ∀ deed ∈ past, deed.isCompleted = true) :
    s.calibration.CommittedBy c (Market.samples (marketsOf past)) (c.scheduled past.length) := by
  refine chronicle.completed_induction completed (Calibration.committedBy_nil c _) ?_
  intro past s v chronicle completed done ih
  obtain ⟨-, hlength, hsteps⟩ := chronicle.records completed
  obtain ⟨hrecords, hlast⟩ := chronicle.records_observed completed
  obtain ⟨hroom, -⟩ := Strategy.of_completed done
  have htaken : ∀ i ∈ c.scheduled past.length,
      i < (Market.samples (marketsOf past)).length := by
    intro i mem
    rw [Market.length_samples, hlength]
    exact (c.mem_scheduled.mp mem).1
  -- what is committed so far does not see the new market
  have hbefore := ih.append htaken [(Venue.market v).sample (marketsOf past).getLast?]
  rw [← Market.samples_append] at hbefore
  rw [marketsOf_step, List.length_append, List.length_singleton, Strategy.step_frame hroom]
  rw [← chronicle.config_eq, ← hsteps] at hbefore ⊢
  rw [← chronicle.config_eq] at hrecords
  exact Strategy.committed_recalibrated hrecords hlast hbefore

/-- Over any number of completed steps and the end of the data behind them, the state is always the
one that the attempts of the schedule have committed, each by its own window. As long as the changes
are finite and no deviation leaves the number range with its normalization, decay and volatility are
committed together. -/
theorem committed_on_schedule (chronicle : Chronicle c past s v)
    (completed : ∀ deed ∈ past, deed.isCompleted = true) :
    let n := past.length
    let samples := Market.samples (marketsOf past)
    s.calibration.CommittedBy c samples (c.scheduled n) ∧
      s.finish.1.calibration.CommittedBy c samples (c.scheduled n ++ c.closing n) ∧
      ((∀ sample ∈ samples, ∀ change, sample.change = some change →
          Scalar.isFinite change = true) →
        (∀ i ∈ c.scheduled n ++ c.closing n, c.fits samples i = true →
          Scalar.isFinite (c.deviationAt samples i) = true) →
        s.calibration.IsOfOneWindow c samples ∧
          s.finish.1.calibration.IsOfOneWindow c samples) := by
  intro n samples
  have hpos := chronicle.accepted.window_pos
  have hcommitted := chronicle.committed completed
  obtain ⟨hrecords, hlength, hsteps⟩ := chronicle.records completed
  have hfinish : s.finish.1.calibration.CommittedBy c samples (c.scheduled n ++ c.closing n) := by
    have hbefore := hcommitted
    rw [← chronicle.config_eq] at hrecords hpos hbefore ⊢
    have hclosing := Strategy.committed_finish hrecords (hsteps.trans hlength.symm) hpos hbefore
    rw [hlength] at hclosing
    exact hclosing
  refine ⟨hcommitted, hfinish, fun finite inRange ↦ ?_⟩
  have hestimated : ∀ i ∈ c.scheduled n ++ c.closing n,
      c.fits samples i = true → c.volatilityAt samples i ≠ none := by
    intro i mem fitted missing
    have hbeyond := (Config.volatilityAt_eq_none_iff fitted finite).mp missing
    exact Bool.false_ne_true (hbeyond.symm.trans (inRange i mem fitted))
  exact ⟨hcommitted.isOfOneWindow fun i mem ↦ hestimated i (List.mem_append_left _ mem),
    hfinish.isOfOneWindow hestimated⟩

/-- Three steps on a market that moves, and a decay and a volatility from the last two of them. -/
theorem committed_on_schedule_moving :
    let c := { Config.brief with calibrationCadence := 5 }
    let quiet : ReplayVenue Float := ReplayVenue.idle 100 101 1
    let up := ((quiet.push ⟨102, 103, [⟨.buy, 102, 1⟩]⟩).elapse 100).2
    let down := ((quiet.push ⟨100, 101, [⟨.buy, 103.5, 1⟩]⟩).elapse 100).2
    let past := (Strategy.fresh c).stepsAt [quiet, up, down]
    let s := (Strategy.fresh c).after [quiet, up, down]
    let samples := Market.samples (marketsOf past)
    (∀ deed ∈ past, deed.isCompleted = true) ∧ c.fits samples 2 = true ∧
      s.calibration.IsOfOneWindow c samples ∧ s.finish.1.calibration.fittedAt = some 2 ∧
      s.finish.1.calibration.IsOfOneWindow c samples := by
  intro c quiet up down past s samples
  obtain ⟨v, hchronicle⟩ : ∃ v, Chronicle c past s v :=
    Chronicle.of_stepsAt (by decide +kernel) quiet [quiet, up, down]
  have hcompleted : ∀ deed ∈ past, deed.isCompleted = true := by decide +kernel
  have hfinite : ∀ sample ∈ samples, ∀ change, sample.change = some change →
      Scalar.isFinite change = true := by
    have hall : samples.all (fun sample ↦ sample.change.all Scalar.isFinite) = true := by
      decide +kernel
    intro sample mem change hchange
    have hone := List.all_eq_true.mp hall sample mem
    rw [hchange] at hone
    exact hone
  have hinRange : ∀ i ∈ [2], c.fits samples i = true →
      Scalar.isFinite (c.deviationAt samples i) = true := by
    decide +kernel
  obtain ⟨-, hfinish, htogether⟩ := hchronicle.committed_on_schedule hcompleted
  have hfitted : s.finish.1.calibration.fittedAt = some 2 := by
    rw [hfinish.fittedAt]
    decide +kernel
  obtain ⟨hbefore, hafter⟩ := htogether hfinite hinRange
  exact ⟨hcompleted, by decide +kernel, hbefore, hfitted, hafter⟩

/-- On the same market, with a normalization that takes the deviation beyond the number range, the
decay is committed without a volatility. -/
theorem not_isOfOneWindow_of_overflow :
    let c := { Config.brief with calibrationCadence := 5, volatilityNormalization := 1e308 }
    let quiet : ReplayVenue Float := ReplayVenue.idle 100 101 1
    let up := ((quiet.push ⟨102, 103, [⟨.buy, 102, 1⟩]⟩).elapse 100).2
    let down := ((quiet.push ⟨100, 101, [⟨.buy, 103.5, 1⟩]⟩).elapse 100).2
    let past := (Strategy.fresh c).stepsAt [quiet, up, down]
    let s := (Strategy.fresh c).after [quiet, up, down]
    let samples := Market.samples (marketsOf past)
    (∃ v, Chronicle c past s v) ∧ (∀ deed ∈ past, deed.isCompleted = true) ∧
      s.finish.1.calibration.fittedAt = some 2 ∧
      s.finish.1.calibration.volatility.isNaN = true ∧
      ¬ s.finish.1.calibration.IsOfOneWindow c samples := by
  intro c quiet up down past s samples
  have hlast : s.steps - 1 = 2 := by decide +kernel
  have hcalibration : s.finish.1.calibration = (s.fitWindow 2).1.calibration := by
    rw [Strategy.finish, if_pos (by decide +kernel), hlast, Strategy.calibration_calibrate]
  have hfitted : s.finish.1.calibration.fittedAt = some 2 := by
    rw [hcalibration]
    decide +kernel
  have hmissing : (c.volatilityAt samples 2).isNone = true := by decide +kernel
  refine ⟨Chronicle.of_stepsAt (by decide +kernel) quiet _, by decide +kernel, hfitted, ?_,
    Calibration.not_isOfOneWindow hfitted (Option.isNone_iff_eq_none.mp hmissing)⟩
  rw [hcalibration]
  decide +kernel

end Chronicle

end MarketMaking
