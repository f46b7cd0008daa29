import MarketMaking.Proofs.ArrivalCounts
import MarketMaking.Proofs.Capacity
import MarketMaking.Proofs.Lag
import MarketMaking.Proofs.Series
import MarketMaking.Strategy.Series

/-!
# Which calls leave a domain

A strategy that keeps its two series apart, and stops where an operation would leave its domain,
goes through steps, runs and last calibrations in any order on every configuration that was
accepted: in steps that fail or drop samples no position lies outside its table or series and no
difference is negative. There are two ways to leave a domain. A count may be beyond the words, and a
window that the decay is fitted to may hold a depth whose half ticks are the least of the signed
words, or would be below them: there is no number below that for its bucket.
-/

namespace MarketMaking

open Machine

/-! ### Results on a condition -/

namespace Machine

/-- There is the result `x` if `p` holds, and none if not. -/
structure Yields {α : Type} (result : Option α) (p : Prop) (x : α) : Prop where
  of_holds : p → result = some x
  of_not : ¬ p → result = none

namespace Yields

variable {α β : Type} {result : Option α} {next : α → Option β} {p q : Prop} {x : α} {y : β}

theorem some (x : α) : Yields (some x) True x := ⟨fun _ ↦ rfl, fun h ↦ absurd trivial h⟩

theorem add? (m n : Nat) : Yields (add? m n) (m + n < pow2 64) (m + n) :=
  ⟨fun lt ↦ if_pos lt, fun ge ↦ if_neg ge⟩

theorem iff (yields : Yields result p x) (same : p ↔ q) : Yields result q x :=
  ⟨fun h ↦ yields.of_holds (same.mpr h), fun h ↦ yields.of_not (mt same.mp h)⟩

theorem of_eq {other : Option α} (yields : Yields result p x) (eq : other = result) :
    Yields other p x := eq ▸ yields

/-- What follows from a result is there on the same condition. -/
theorem map (yields : Yields result p x) (f : α → β) :
    Yields (result >>= fun x ↦ Option.some (f x)) p (f x) where
  of_holds h := by rw [yields.of_holds h, Option.bind_eq_bind, Option.bind_some]
  of_not h := by rw [yields.of_not h, Option.bind_eq_bind, Option.bind_none]

/-- What goes on from a result has one if both conditions hold. -/
theorem bind (yields : Yields result p x) (onward : p → Yields (next x) q y) :
    Yields (result >>= next) (p ∧ q) y := by
  by_cases hp : p
  · obtain ⟨holds, not⟩ := onward hp
    rw [yields.of_holds hp, Option.bind_eq_bind, Option.bind_some]
    exact ⟨fun h ↦ holds h.2, fun h ↦ not fun hq ↦ h ⟨hp, hq⟩⟩
  · rw [yields.of_not hp, Option.bind_eq_bind, Option.bind_none]
    exact ⟨fun h ↦ absurd h.1 hp, fun _ ↦ rfl⟩

end Yields

end Machine

variable {R V K : Type}

/-! ### Calls -/

/-- What can be asked of a strategy: a step at a venue, a run through a venue that has at most
`ticks` ticks left, or the last calibration. -/
inductive Call (V K : Type) where
  | step (v : V)
  | run (ticks : Nat) (v : V) (k : K)
  | finish

section Calls

variable [Scalar R] [Venue V R] [Recorder K R]

/-- The strategy after a call. -/
def Strategy.perform (s : Strategy R) : Call V K → Strategy R
  | .step v => (s.step v).strategy
  | .run ticks v k => (s.run ticks v k).strategy
  | .finish => s.finish.1

/-- The strategy with its series apart after a call. -/
def SeriesStrategy.perform? (s : SeriesStrategy R) : Call V K → Option (SeriesStrategy R)
  | .step v => do
      let (_, s, _) ← s.step? v
      return s
  | .run ticks v k => s.run? ticks v k
  | .finish => s.finish?

/-- Is a last calibration made at the end of the data? -/
def Strategy.isClosing (s : Strategy R) : Bool :=
  s.config.calibrationWindow ≤ s.history.size && 0 < s.steps &&
    !s.config.calibrator.isDue (s.steps - 1) s.history.size

/-- The windows of depths that a deed fits the decay to: one at most. -/
def Deed.fitted : Deed R V → List (List (Option R))
  | step s v =>
      if s.history.refusal?.isNone && (s.observed v).1.isDue then
        [(s.observed v).1.window.map Sample.depth]
      else []
  | finish s => if s.isClosing then [s.window.map Sample.depth] else []

/-- What is done in a run. -/
def Strategy.deedsFrom : (horizon : Nat) → Strategy R → V → K → List (Deed R V)
  | 0, s, _, _ => [.finish s]
  | horizon + 1, s, v, k =>
      match Venue.elapse v s.config.stepNanos with
      | (false, _) => [.finish s]
      | (true, v) => .step s v ::
          match (s.step v).result with
          | .error _ => []
          | .ok row =>
              match Recorder.record k row with
              | (.error _, _) => []
              | (.ok (), k) => deedsFrom horizon (s.step v).strategy (s.step v).venue k

/-- What is done in a call. -/
def Strategy.deedsIn (s : Strategy R) : Call V K → List (Deed R V)
  | .step v => [.step s v]
  | .run ticks v k => s.deedsFrom (ticks + 1) v k
  | .finish => [.finish s]

/-- What is done in some calls in order. -/
def Strategy.deeds (s : Strategy R) : List (Call V K) → List (Deed R V)
  | [] => []
  | call :: calls => s.deedsIn call ++ (s.perform call).deeds calls

end Calls

/-! ### Counts -/

namespace Strategy

/-- Is nothing that `s` counts ahead of what `t` counts? -/
structure Precedes (s t : Strategy R) : Prop where
  recorded : s.history.recorded ≤ t.history.recorded
  steps : s.steps ≤ t.steps
  calibrations : s.calibrations ≤ t.calibrations
  failedCalibrations : s.failedCalibrations ≤ t.failedCalibrations
  ordersSubmitted : s.ordersSubmitted ≤ t.ordersSubmitted
  ordersCancelled : s.ordersCancelled ≤ t.ordersCancelled

/-- Do all counts fit in words? -/
def Counted (s : Strategy R) : Prop := ∀ n ∈ s.series.counts, n < pow2 64

variable {s t u : Strategy R}

private theorem counted_iff :
    s.Counted ↔ s.history.recorded < pow2 64 ∧ s.steps < pow2 64 ∧ s.calibrations < pow2 64 ∧
      s.failedCalibrations < pow2 64 ∧ s.ordersSubmitted < pow2 64 ∧
      s.ordersCancelled < pow2 64 := by
  have hrecorded : s.series.history.recorded = s.history.recorded := s.history.recorded_series
  rw [Counted, SeriesStrategy.counts, hrecorded]
  simp only [List.forall_mem_cons, List.not_mem_nil, false_imp_iff, implies_true, and_true]
  rfl

namespace Precedes

@[refl] theorem refl (s : Strategy R) : s.Precedes s :=
  ⟨le_refl _, le_refl _, le_refl _, le_refl _, le_refl _, le_refl _⟩

theorem trans (first : s.Precedes t) (second : t.Precedes u) : s.Precedes u where
  recorded := first.recorded.trans second.recorded
  steps := first.steps.trans second.steps
  calibrations := first.calibrations.trans second.calibrations
  failedCalibrations := first.failedCalibrations.trans second.failedCalibrations
  ordersSubmitted := first.ordersSubmitted.trans second.ordersSubmitted
  ordersCancelled := first.ordersCancelled.trans second.ordersCancelled

/-- Counts that fit in words did so before. -/
theorem counted (precedes : s.Precedes t) (counted : t.Counted) : s.Counted := by
  obtain ⟨h₁, h₂, h₃, h₄, h₅, h₆⟩ := counted_iff.mp counted
  exact counted_iff.mpr ⟨precedes.recorded.trans_lt h₁, precedes.steps.trans_lt h₂,
    precedes.calibrations.trans_lt h₃, precedes.failedCalibrations.trans_lt h₄,
    precedes.ordersSubmitted.trans_lt h₅, precedes.ordersCancelled.trans_lt h₆⟩

end Precedes

variable [Scalar R]

private theorem counts_calibrate (s : Strategy R) (step : Nat) :
    (s.calibrate step).1.series.counts = (s.fitWindow step).1.series.counts := by
  rw [calibrate_eq, announce_frame]
  rfl

private theorem precedes_calibrate (s : Strategy R) (step : Nat) :
    s.Precedes (s.calibrate step).1 := by
  have hfit : s.Precedes (s.fitWindow step).1 := by
    unfold fitWindow
    split
    · exact { Precedes.refl s with calibrations := Nat.le_succ _ }
    · exact { Precedes.refl s with failedCalibrations := Nat.le_succ _ }
  have hannounce (t : Strategy R) : t.Precedes (t.announce step).1 := by
    rw [announce_frame]
    exact { Precedes.refl t with }
  rw [calibrate_eq]
  exact hfit.trans (hannounce _)

private theorem precedes_recalibrated (s : Strategy R) : s.Precedes s.recalibrated.1 := by
  unfold recalibrated
  split
  · exact s.precedes_calibrate s.steps
  · exact .refl s

private theorem precedes_finish (s : Strategy R) : s.Precedes s.finish.1 := by
  unfold finish
  split
  · exact s.precedes_calibrate _
  · exact .refl s

omit [Scalar R] in
private theorem precedes_complete (s : Strategy R) (r : Reconciliation) :
    s.Precedes (s.complete r) where
  recorded := le_refl _
  steps := Nat.le_succ _
  calibrations := le_refl _
  failedCalibrations := le_refl _
  ordersSubmitted := Nat.le_add_right _ _
  ordersCancelled := Nat.le_add_right _ _

variable [Venue V R] [Recorder K R]

private theorem precedes_prepared (s : Strategy R) (v : V) :
    s.Precedes (s.observed v).1 ∧ (s.observed v).1.Precedes (s.prepared v) := by
  refine ⟨{ Precedes.refl s with recorded := ?_ }, precedes_recalibrated _⟩
  exact (Nat.le_succ _).trans_eq
    (s.history.recorded_add (Venue.book v) (Venue.lastTrades v)).symm

omit [Recorder K R] in
private theorem precedes_step_of_room (room : s.history.refusal? = none) (v : V) :
    (s.prepared v).Precedes (s.step v).strategy := by
  rw [step_of_room room]
  cases (s.pass v).result with
  | error e => exact .refl _
  | ok r => exact precedes_complete _ r

private theorem precedes_step (s : Strategy R) (v : V) : s.Precedes (s.step v).strategy := by
  cases hr : s.history.refusal? with
  | some e =>
    rw [step_of_refusal hr]
  | none =>
    obtain ⟨hobserved, hprepared⟩ := s.precedes_prepared v
    exact (hobserved.trans hprepared).trans (precedes_step_of_room hr v)

omit [Venue V R] in
private theorem strategy_conclude (s : Strategy R) (v : V) (k : K) (past : Array (Event R)) :
    (s.conclude v k past).strategy = s.finish.1 := by
  unfold conclude
  simp only
  split <;> rfl

private theorem precedes_runFrom (s : Strategy R) (horizon : Nat) (v : V) (k : K)
    (past : Array (Event R)) : s.Precedes (s.runFrom horizon v k past).strategy := by
  induction horizon generalizing s v k past with
  | zero =>
    rw [runFrom, strategy_conclude]
    exact s.precedes_finish
  | succ horizon ih =>
    unfold runFrom
    split
    · rw [strategy_conclude]
      exact s.precedes_finish
    · next v _ =>
      have hstep := s.precedes_step v
      simp only
      split
      · exact hstep
      · split
        · exact hstep
        · exact hstep.trans (ih _ _ _ _)

private theorem precedes_perform (s : Strategy R) (call : Call V K) :
    s.Precedes (s.perform call) := by
  cases call with
  | step v => exact s.precedes_step v
  | run ticks v k => exact s.precedes_runFrom _ v k _
  | finish => exact s.precedes_finish

private theorem precedes_foldl (s : Strategy R) (calls : List (Call V K)) :
    s.Precedes (calls.foldl perform s) := by
  induction calls generalizing s with
  | nil => exact .refl s
  | cons call calls ih => exact (s.precedes_perform call).trans (ih _)

end Strategy

/-! ### The operations of a strategy -/

open Histogram (AllNumbered)

/-- The fit through a table is the fit to the histogram, if the depths of the window have bucket
numbers. -/
theorem Calibrator.fit?_yields {c : Calibrator Float} (positive : 0 < c.histogramBuckets)
    (short : c.histogramBuckets < pow2 63) {depths : List (Option Float)}
    (full : c.window ≤ depths.length) (fits : depths.length < pow2 64) :
    Yields (c.fit? depths) (AllNumbered (depths.drop (depths.length - c.window)))
      (c.fit depths) := by
  have hfits : (depths.drop (depths.length - c.window)).length < pow2 64 := by
    rw [List.length_drop]
    omega
  have hfit? : c.fit? depths = do
      let counts ← Histogram.measure? c.histogramBuckets (depths.drop (depths.length - c.window))
      let points := c.points counts
      return if points.length < 2 then .error (.degenerateFit (.sparseIntensity points.length))
      else do
        let line ← Line.fit (points.map Prod.fst) (points.map Prod.snd)
        return ⟨Scalar.exp line.intercept, -line.slope, points.length⟩ := by
    rw [fit?, if_neg (not_lt.mpr full), sub?_eq_some full, Option.bind_eq_bind, Option.bind_some,
      from?_eq_some (Nat.sub_le _ _), Option.bind_eq_bind, Option.bind_some]
  rw [hfit?, fit, if_neg (not_lt.mpr full)]
  constructor
  · intro numbered
    rw [Histogram.measure?_eq positive short hfits numbered]
    rfl
  · intro unnumbered
    rw [Histogram.measure?_eq_none unnumbered]
    rfl

namespace Strategy

/-- A strategy on `c` with the history that `c` asks for. The table of the histogram has no more
entries than a signed word counts: no longer one fits in memory. -/
structure Sound (c : Config Float) (s : Strategy Float) : Prop where
  config_eq : s.config = c
  accepted : c.Accepted
  table : c.histogramBuckets < pow2 63
  suits : s.history.Suits c

variable {c : Config Float} {s : Strategy Float}

private theorem quote_series (s : Strategy Float) (book : Book Float) (position : Float) :
    s.series.quote s.history.recorded book position = (s.quote book position).1 := by
  have hconfig : s.series.config = s.config := rfl
  have hcalibration : s.series.calibration = s.calibration := rfl
  rw [SeriesStrategy.quote, hconfig, hcalibration, quote]
  split
  · cases Quote.around s.config.riskParams s.calibration book position with
    | ok q => rfl
    | error cause =>
      simp only
      split <;> rfl
  · rfl

private theorem announce_series (s : Strategy Float) (step : Nat) :
    (s.announce step).1.series = s.series.announce := by
  have hannounced : s.series.announced = s.announced := rfl
  have hcalibration : s.series.calibration = s.calibration := rfl
  rw [announce, SeriesStrategy.announce, hannounced, hcalibration]
  split <;> rfl

private theorem recorded?_yields (h : ArrivalHistory Float) :
    Yields h.series.recorded? (h.recorded < pow2 64) h.recorded := by
  rw [SeriesHistory.recorded?, h.size_series]
  exact .add? h.dropped h.size

private theorem complete?_yields (counted : s.Counted) (r : Reconciliation) :
    Yields (s.series.complete? r) (s.complete r).Counted (s.complete r).series := by
  obtain ⟨hrecorded, -, hcalibrations, hfailed, -, -⟩ := counted_iff.mp counted
  refine Yields.iff ((Yields.add? s.ordersCancelled r.cancelled).bind fun _ ↦
    (Yields.add? s.ordersSubmitted r.submitted).bind fun _ ↦
      (Yields.add? s.steps 1).map _) ?_
  rw [counted_iff]
  constructor
  · rintro ⟨hcancelled, hsubmitted, hsteps⟩
    exact ⟨hrecorded, hsteps, hcalibrations, hfailed, hsubmitted, hcancelled⟩
  · rintro ⟨-, hsteps, -, -, hsubmitted, hcancelled⟩
    exact ⟨hcancelled, hsubmitted, hsteps⟩

namespace Sound

/-- A strategy starts so. -/
theorem start (accepted : c.Accepted) (table : c.histogramBuckets < pow2 63) :
    Sound c (fresh c) where
  config_eq := rfl
  accepted := accepted
  table := table
  suits := .fresh accepted

private theorem keeps (sound : Sound c s) : s.history.retain ≤ s.history.capacity := by
  rw [sound.suits.retain, sound.suits.capacity]
  exact sound.accepted.capacity

private theorem isDue?_eq (sound : Sound c s) (step available : Nat) :
    s.config.calibrator.isDue? step available =
      Option.some (s.config.calibrator.isDue step available) := by
  have hcadence : 0 < s.config.calibrator.cadence := by
    rw [sound.config_eq]
    exact sound.accepted.cadence
  exact Calibrator.isDue?_eq_some _ hcadence step available

/-- Decay and volatility come from the two series as they come from the samples, if the depths of
the window have bucket numbers and the attempt can be counted. -/
theorem fitWindow?_yields (sound : Sound c s) (counted : s.Counted)
    (full : s.config.calibrationWindow ≤ s.history.size) (step : Nat) :
    Yields (s.series.fitWindow? step)
      (AllNumbered (s.window.map Sample.depth) ∧ (s.fitWindow step).1.Counted)
      (s.fitWindow step).1.series := by
  obtain ⟨hrecorded, hsteps, hcalibrations, hfailed, hsubmitted, hcancelled⟩ :=
    counted_iff.mp counted
  have hbuckets : 0 < s.config.calibrator.histogramBuckets := by
    rw [sound.config_eq]
    exact lt_of_lt_of_le Nat.two_pos sound.accepted.histogramBuckets
  have htable : s.config.calibrator.histogramBuckets < pow2 63 := by
    rw [sound.config_eq]
    exact sound.table
  have hfits : s.history.depths.length < pow2 64 := by
    rw [s.history.length_depths]
    exact (Nat.le_add_left _ _).trans_lt hrecorded
  have hfit := Calibrator.fit?_yields hbuckets htable
    (full.trans_eq s.history.length_depths.symm) hfits
  have hwindow : s.history.depths.drop (s.history.depths.length - s.config.calibrator.window) =
      s.window.map Sample.depth := s.depths_window.symm
  have htotal : s.config.calibrator.fit (s.window.map Sample.depth) =
      s.config.calibrator.fit s.history.depths := by
    rw [← hwindow]
    exact Calibrator.fit_drop s.config.calibrator _
  have hlockstep : (guard (s.series.history.depths.length = s.series.history.changes.length) :
      Option Unit) = some () := s.history.lockstep_series
  rw [hwindow] at hfit
  rw [SeriesStrategy.fitWindow?, hlockstep, Option.bind_eq_bind, Option.bind_some]
  refine hfit.bind fun _ ↦ ?_
  rw [fitWindow, htotal, changes_window, Volatility.estimate_drop]
  cases s.config.calibrator.fit s.history.depths with
  | ok decay =>
    simp only [Volatility.estimate?_eq, Option.bind_eq_bind, Option.bind_some]
    refine ((Yields.add? s.calibrations 1).map _).iff ?_
    rw [counted_iff]
    exact ⟨fun h ↦ ⟨hrecorded, hsteps, h, hfailed, hsubmitted, hcancelled⟩, fun h ↦ h.2.2.1⟩
  | error e =>
    refine ((Yields.add? s.failedCalibrations 1).map _).iff ?_
    rw [counted_iff]
    exact ⟨fun h ↦ ⟨hrecorded, hsteps, hcalibrations, h, hsubmitted, hcancelled⟩,
      fun h ↦ h.2.2.2.1⟩

/-- An attempt to calibrate comes to the same, if it finds bucket numbers and can be counted. -/
theorem calibrate?_yields (sound : Sound c s) (counted : s.Counted)
    (full : s.config.calibrationWindow ≤ s.history.size) (step : Nat) :
    Yields (s.series.calibrate? step)
      (AllNumbered (s.window.map Sample.depth) ∧ (s.calibrate step).1.Counted)
      (s.calibrate step).1.series := by
  have hcounted : (s.calibrate step).1.Counted ↔ (s.fitWindow step).1.Counted := by
    rw [Counted, counts_calibrate, Counted]
  rw [SeriesStrategy.calibrate?, hcounted, calibrate_eq, announce_series]
  exact (sound.fitWindow?_yields counted full step).map SeriesStrategy.announce

private theorem full_of_isDue (due : s.isDue = true) :
    s.config.calibrationWindow ≤ s.history.size :=
  of_decide_eq_true (Bool.and_eq_true_iff.mp due).1

private theorem recalibrate?_yields (sound : Sound c s) (counted : s.Counted) :
    Yields s.series.recalibrate?
      ((∀ depths ∈ if s.isDue then [s.window.map Sample.depth] else [], AllNumbered depths) ∧
        s.recalibrated.1.Counted)
      s.recalibrated.1.series := by
  have hsize : s.series.history.size = s.history.size := s.history.size_series
  have hconfig : s.series.config = s.config := rfl
  have hsteps : s.series.steps = s.steps := rfl
  rw [SeriesStrategy.recalibrate?, hsize, hconfig, hsteps, sound.isDue?_eq, Option.bind_eq_bind,
    Option.bind_some, recalibrated, ← isDue]
  cases due : s.isDue with
  | false => exact (Yields.some _).iff ⟨fun _ ↦ ⟨List.forall_mem_nil _, counted⟩, fun _ ↦ trivial⟩
  | true =>
    refine (sound.calibrate?_yields counted (full_of_isDue due) s.steps).iff ?_
    rw [if_pos rfl, if_pos rfl, List.forall_mem_singleton]

/-- The last calibration comes to the same on the same conditions. -/
theorem finish?_yields (sound : Sound c s) (counted : s.Counted) :
    Yields s.series.finish?
      ((∀ depths ∈ if s.isClosing then [s.window.map Sample.depth] else [], AllNumbered depths) ∧
        s.finish.1.Counted)
      s.finish.1.series := by
  have hsize : s.series.history.size = s.history.size := s.history.size_series
  have hconfig : s.series.config = s.config := rfl
  have hsteps : s.series.steps = s.steps := rfl
  rw [SeriesStrategy.finish?, hsize, hconfig, hsteps, finish, isClosing]
  cases full : decide (s.config.calibrationWindow ≤ s.history.size) && decide (0 < s.steps) with
  | false => exact (Yields.some _).iff ⟨fun _ ↦ ⟨List.forall_mem_nil _, counted⟩, fun _ ↦ trivial⟩
  | true =>
    obtain ⟨hfull, hpos⟩ := Bool.and_eq_true_iff.mp full
    rw [if_pos rfl, sub?_eq_some (of_decide_eq_true hpos), Option.bind_eq_bind, Option.bind_some,
      sound.isDue?_eq, Option.bind_eq_bind, Option.bind_some, Bool.true_and]
    cases s.config.calibrator.isDue (s.steps - 1) s.history.size with
    | true => exact (Yields.some _).iff ⟨fun _ ↦ ⟨List.forall_mem_nil _, counted⟩, fun _ ↦ trivial⟩
    | false =>
      refine (sound.calibrate?_yields counted (of_decide_eq_true hfull) _).iff ?_
      simp only [Bool.not_false, if_true, List.forall_mem_singleton]

/-! ### Steps, runs and calls -/

variable [Venue V Float] [Recorder K Float]

omit [Recorder K Float] in
private theorem observed (sound : Sound c s) (room : s.history.refusal? = none) (v : V) :
    Sound c (s.observed v).1 where
  config_eq := sound.config_eq
  accepted := sound.accepted
  table := sound.table
  suits := sound.suits.add room _ _

omit [Recorder K Float] in
private theorem step (sound : Sound c s) (v : V) : Sound c (s.step v).strategy where
  config_eq := (config_step s v).trans sound.config_eq
  accepted := sound.accepted
  table := sound.table
  suits := suits_step sound.suits v

private theorem finish (sound : Sound c s) : Sound c s.finish.1 := by
  rw [finish_frame]
  exact ⟨sound.config_eq, sound.accepted, sound.table, sound.suits⟩

omit [Recorder K Float] in
private theorem trade?_yields (room : s.history.refusal? = none) {v : V}
    (counted : (s.prepared v).Counted) :
    Yields ((s.prepared v).series.trade? (s.prepared v).history.recorded (Venue.book v)
        (Venue.clearTrades v))
      (s.step v).strategy.Counted
      ((s.step v).result, (s.step v).strategy.series, (s.step v).venue) := by
  have hconfig : (s.prepared v).series.config = s.config := config_prepared s v
  have hpass : s.config.orderLimits.reconcile (s.quoted v).1 (Venue.clearTrades v) = s.pass v := rfl
  have hquote : (s.prepared v).quotation (Venue.book v) (Venue.position (Venue.clearTrades v)) =
      s.quoted v := rfl
  rw [SeriesStrategy.trade?, quote_series, quote_eq, hquote, hconfig, step_of_room room]
  simp only [hpass]
  cases (s.pass v).result with
  | error e => exact (Yields.some _).iff ⟨fun _ ↦ counted, fun _ ↦ trivial⟩
  | ok r => exact (complete?_yields counted r).map _

omit [Recorder K Float] in
/-- A step comes to the same, if it finds bucket numbers and its counts fit in words. -/
theorem step?_yields (sound : Sound c s) (counted : s.Counted) (v : V) :
    Yields (s.series.step? v)
      ((∀ depths ∈ (Deed.step s v).fitted, AllNumbered depths) ∧ (s.step v).strategy.Counted)
      ((s.step v).result, (s.step v).strategy.series, (s.step v).venue) := by
  have hrecord : s.series.history.record? (Venue.book v) (Venue.lastTrades v) = _ :=
    ArrivalHistory.record?_series sound.keeps (Venue.book v) (Venue.lastTrades v)
  rw [SeriesStrategy.step?, hrecord, ArrivalHistory.record, Deed.fitted]
  cases hr : s.history.refusal? with
  | some e =>
    rw [step_of_refusal hr]
    exact (Yields.some _).iff ⟨fun _ ↦ ⟨List.forall_mem_nil _, counted⟩, fun _ ↦ trivial⟩
  | none =>
    obtain ⟨-, hprepared⟩ := s.precedes_prepared v
    -- recording changes no count but that of the steps recorded
    have hobserved (recorded : (s.observed v).1.history.recorded < pow2 64) :
        (s.observed v).1.Counted :=
      counted_iff.mpr ⟨recorded, (counted_iff.mp counted).2⟩
    have hrecorded : (s.observed v).1.history.recorded = (s.prepared v).history.recorded := by
      rw [history_prepared]
      rfl
    show Yields (do
      let recorded ← (s.observed v).1.history.series.recorded?
      let t ← (s.observed v).1.series.recalibrate?
      t.trade? recorded (Venue.book v) (Venue.clearTrades v)) _ _
    refine Yields.iff ((recorded?_yields (s.observed v).1.history).bind fun h ↦
      ((sound.observed hr v).recalibrate?_yields (hobserved h)).bind fun hrecalibrated ↦
        (trade?_yields hr hrecalibrated.2).of_eq ?_) ⟨?_, ?_⟩
    · rw [hrecorded]
      rfl
    · rintro ⟨-, ⟨hnumbered, -⟩, hcounted⟩
      exact ⟨hnumbered, hcounted⟩
    · rintro ⟨hnumbered, hcounted⟩
      have hpre := (precedes_step_of_room hr v).counted hcounted
      exact ⟨(counted_iff.mp (hprepared.counted hpre)).1, ⟨hnumbered, hpre⟩, hcounted⟩

private theorem runFrom?_yields (sound : Sound c s) (counted : s.Counted) (horizon : Nat) (v : V)
    (k : K) (past : Array (Event Float)) :
    Yields (s.series.runFrom? horizon v k)
      ((∀ deed ∈ s.deedsFrom horizon v k, ∀ depths ∈ deed.fitted, AllNumbered depths) ∧
        (s.runFrom horizon v k past).strategy.Counted)
      (s.runFrom horizon v k past).strategy.series := by
  induction horizon generalizing s v k past with
  | zero =>
    rw [SeriesStrategy.runFrom?, deedsFrom, runFrom, strategy_conclude, List.forall_mem_singleton]
    exact sound.finish?_yields counted
  | succ horizon ih =>
    have hconfig : s.series.config.stepNanos = s.config.stepNanos := rfl
    rw [SeriesStrategy.runFrom?, hconfig]
    unfold deedsFrom runFrom
    rcases helapse : Venue.elapse v s.config.stepNanos with ⟨_ | _, v⟩
    · simp only [strategy_conclude, List.forall_mem_singleton]
      exact sound.finish?_yields counted
    · have hstep := sound.step?_yields counted v
      simp only
      cases hresult : (s.step v).result with
      | error e =>
        rw [hresult] at hstep
        rw [List.forall_mem_singleton]
        exact Yields.iff (hstep.bind fun _ ↦ .some _) (and_iff_left trivial)
      | ok row =>
        rw [hresult] at hstep
        rcases hrow : Recorder.record k row with ⟨_ | _, k⟩
        · simp only [hrow, List.forall_mem_singleton]
          refine Yields.iff (hstep.bind fun _ ↦ ?_) (and_iff_left trivial)
          simp only [hrow]
          exact .some _
        · simp only [hrow, List.forall_mem_cons]
          have hlater := (s.step v).strategy.precedes_runFrom horizon (s.step v).venue k
            (past ++ (s.step v).events)
          have hrest (h : (s.step v).strategy.Counted) :=
            ih (sound.step v) h (s.step v).venue k (past ++ (s.step v).events)
          refine Yields.iff (hstep.bind fun h ↦ (hrest h.2).of_eq ?_) ⟨?_, ?_⟩
          · simp only [hrow]
          · rintro ⟨⟨hnumbered, -⟩, hrest, hcounted⟩
            exact ⟨⟨hnumbered, hrest⟩, hcounted⟩
          · rintro ⟨⟨hnumbered, hrest⟩, hcounted⟩
            exact ⟨⟨hnumbered, hlater.counted hcounted⟩, hrest, hcounted⟩

private theorem runFrom {horizon : Nat} (sound : Sound c s) (v : V) (k : K)
    (past : Array (Event Float)) : Sound c (s.runFrom horizon v k past).strategy := by
  induction horizon generalizing s v k past with
  | zero =>
    rw [Strategy.runFrom, strategy_conclude]
    exact sound.finish
  | succ horizon ih =>
    unfold Strategy.runFrom
    split
    · rw [strategy_conclude]
      exact sound.finish
    · simp only
      split
      · exact sound.step _
      · split
        · exact sound.step _
        · exact ih (sound.step _) _ _ _

private theorem perform (sound : Sound c s) (call : Call V K) : Sound c (s.perform call) := by
  cases call with
  | step v => exact sound.step v
  | run ticks v k => exact sound.runFrom v k _
  | finish => exact sound.finish

private theorem perform?_yields (sound : Sound c s) (counted : s.Counted) (call : Call V K) :
    Yields (s.series.perform? call)
      ((∀ deed ∈ s.deedsIn call, ∀ depths ∈ deed.fitted, AllNumbered depths) ∧
        (s.perform call).Counted)
      (s.perform call).series := by
  cases call with
  | step v =>
    rw [deedsIn, List.forall_mem_singleton]
    exact (sound.step?_yields counted v).map fun after ↦ after.2.1
  | run ticks v k => exact sound.runFrom?_yields counted _ v k _
  | finish =>
    rw [deedsIn, List.forall_mem_singleton]
    exact sound.finish?_yields counted

private theorem foldlM_perform? (sound : Sound c s) (counted : s.Counted)
    (calls : List (Call V K)) :
    Yields (calls.foldlM SeriesStrategy.perform? s.series)
      ((∀ deed ∈ s.deeds calls, ∀ depths ∈ deed.fitted, AllNumbered depths) ∧
        (calls.foldl Strategy.perform s).Counted)
      (calls.foldl Strategy.perform s).series := by
  induction calls generalizing s with
  | nil => exact (Yields.some _).iff ⟨fun _ ↦ ⟨List.forall_mem_nil _, counted⟩, fun _ ↦ trivial⟩
  | cons call calls ih =>
    have hlater := precedes_foldl (s.perform call) calls
    rw [List.foldlM_cons, deeds, List.foldl_cons, List.forall_mem_append]
    refine Yields.iff ((sound.perform?_yields counted call).bind fun h ↦
      ih (sound.perform call) h.2) ⟨?_, ?_⟩
    · rintro ⟨⟨hnumbered, -⟩, hrest, hcounted⟩
      exact ⟨⟨hnumbered, hrest⟩, hcounted⟩
    · rintro ⟨⟨hnumbered, hrest⟩, hcounted⟩
      exact ⟨⟨hnumbered, hlater.counted hcounted⟩, hrest, hcounted⟩

end Sound

variable {V K : Type} [Venue V Float] [Recorder K Float]

end Strategy

end MarketMaking
