import Mathlib.Data.List.Induction
import MarketMaking.Proofs.Lag
import MarketMaking.Proofs.Pass
import MarketMaking.Venue.Replay

/-!
# The course of a run

A run makes laps: it asks the clock, steps, and hands the record of the step to the recorder. The
clock may say that the data has ended, the step may fail, and the recorder may refuse the record. In
the first case the calibration is closed and the recorder is flushed once; in the other two nothing
follows. All that a run does is told here in the order in which it does it, with the states that it
hands on from one operation to the next.
-/

namespace MarketMaking

variable {R V K : Type}

/-- Something that a run does. -/
inductive Effect (R : Type) where
  /-- The clock was asked for a tick, and ticked or did not. -/
  | asked (ticked : Bool)
  | stepped (result : Except (Error R) (StepRecord R))
  | recorded (row : StepRecord R) (result : Except (Error R) Unit)
  | finished
  | flushed (result : Except (Error R) Unit)

namespace Effect

/-- Was the clock asked? -/
def isAsked : Effect R → Bool
  | asked _ => true
  | _ => false

/-- What a run does in a lap: a tick, a step, and a record that is accepted. -/
def ofLap (row : StepRecord R) : List (Effect R) :=
  [.asked true, .stepped (.ok row), .recorded row (.ok ())]

/-- What a run does in some laps. -/
def ofLaps (rows : List (StepRecord R)) : List (Effect R) := rows.flatMap ofLap

/-- The clock is asked once a lap. -/
@[simp] theorem countP_isAsked_ofLaps (rows : List (StepRecord R)) :
    (ofLaps rows).countP isAsked = rows.length := by
  induction rows with
  | nil => rfl
  | cons row rows ih =>
    have hlap : (ofLap row).countP isAsked = 1 := rfl
    rw [ofLaps, List.flatMap_cons, List.countP_append, hlap, ← ofLaps, ih, List.length_cons,
      Nat.add_comm]

end Effect

open Effect (ofLaps isAsked)

variable [Scalar R] [Venue V R] [Recorder K R]

/-! ## Laps -/

/-- A venue with `left` ticks to come, which only its clock takes. -/
structure Venue.Clock (left : V → Nat) : Prop where
  ticks (v : V) (nanos : Int) : (Venue.elapse v nanos).1 = decide (0 < left v)
  elapse (v : V) (nanos : Int) : left (Venue.elapse v nanos).2 = left v - 1
  clearTrades (v : V) : left (Venue.clearTrades v) = left v
  clearInactive (v : V) : left (Venue.clearInactive v) = left v
  cancel (v : V) (id : OrderId) : left (Venue.cancel v id).2 = left v
  submit (v : V) (request : OrderRequest R) : left (Venue.submit v request).2 = left v

omit [Scalar R] in
/-- Queued ticks are to come. -/
theorem ReplayVenue.clock : Venue.Clock fun v : ReplayVenue R ↦ v.ticks.length where
  ticks v nanos := by
    change (v.elapse nanos).1 = _
    unfold ReplayVenue.elapse
    split <;> simp [*]
  elapse v nanos := by
    change (v.elapse nanos).2.ticks.length = _
    unfold ReplayVenue.elapse
    split <;> simp [*]
  clearTrades _ := rfl
  clearInactive _ := rfl
  cancel v id := by
    change (v.cancel id).2.ticks.length = _
    unfold ReplayVenue.cancel
    split <;> rfl
  submit v request := by
    change (v.submit request).2.ticks.length = _
    unfold ReplayVenue.submit
    split <;> rfl

namespace Strategy

/-- The clock ticks `n` times for a strategy that steps at every tick, and then no more. -/
def TicksFor : (n : Nat) → Strategy R → V → Prop
  | 0, s, v => (Venue.elapse v s.config.stepNanos).1 = false
  | n + 1, s, v =>
      let (ticked, w) := Venue.elapse v s.config.stepNanos
      ticked = true ∧ TicksFor n (s.step w).strategy (s.step w).venue

private theorem ticksFor_of_clock {left : V → Nat} (clock : Venue.Clock left) (s : Strategy R)
    (v : V) : s.TicksFor (left v) v := by
  have hstep (s : Strategy R) (w : V) : left (s.step w).venue = left w := by
    rcases s.venue_step w with same | passed
    · rw [same]
    · rw [passed]
      apply OrderLimits.reconcile_invariant (P := fun u ↦ left u = left w)
      · exact fun u same ↦ (clock.clearInactive u).trans same
      · exact fun u id same ↦ (clock.cancel u id).trans same
      · exact fun u request same ↦ (clock.submit u request).trans same
      · exact clock.clearTrades w
  generalize hn : left v = n
  induction n generalizing s v with
  | zero =>
    rw [TicksFor, clock.ticks, hn]
    rfl
  | succ n ih =>
    have hticks := clock.ticks v s.config.stepNanos
    have hleft := clock.elapse v s.config.stepNanos
    rw [hn] at hticks hleft
    exact ⟨hticks, ih _ _ ((hstep _ _).trans hleft)⟩

/-- From `s`, `v` and `k` a run comes to other states by laps that produce `rows`. -/
inductive Laps (s : Strategy R) (v : V) (k : K) :
    List (StepRecord R) → Strategy R → V → K → Prop where
  | none : Laps s v k [] s v k
  | lap {rows : List (StepRecord R)} {row : StepRecord R} {t : Strategy R} {w w' : V} {l l' : K} :
      Laps s v k rows t w l → Venue.elapse w t.config.stepNanos = (true, w') →
      (t.step w').result = .ok row → Recorder.record l row = (.ok (), l') →
      Laps s v k (rows ++ [row]) (t.step w').strategy (t.step w').venue l'

/-- From `s`, `v` and `k` a run does what the list tells and ends with a result and other states. -/
inductive Course (s : Strategy R) (v : V) (k : K) :
    List (Effect R) → Except (Error R) (Summary R) → Strategy R → V → K → Prop where
  /-- The data ends: one last calibration, then one flush, which decides about the result. -/
  | ended {rows : List (StepRecord R)} {t : Strategy R} {w w' : V} {l l' : K}
      {flushed : Except (Error R) Unit} :
      Laps s v k rows t w l → Venue.elapse w t.config.stepNanos = (false, w') →
      Recorder.flush l = (flushed, l') →
      Course s v k (ofLaps rows ++ [.asked false, .finished, .flushed flushed])
        (flushed.map fun _ ↦ t.finish.1.summary) t.finish.1 w' l'
  /-- The recorder refuses a record, and nothing follows. -/
  | refused {rows : List (StepRecord R)} {row : StepRecord R} {t : Strategy R} {w w' : V} {l l' : K}
      {e : Error R} :
      Laps s v k rows t w l → Venue.elapse w t.config.stepNanos = (true, w') →
      (t.step w').result = .ok row → Recorder.record l row = (.error e, l') →
      Course s v k (ofLaps rows ++ [.asked true, .stepped (.ok row), .recorded row (.error e)])
        (.error e) (t.step w').strategy (t.step w').venue l'
  /-- A step fails, and nothing follows. -/
  | failed {rows : List (StepRecord R)} {t : Strategy R} {w w' : V} {l : K} {e : Error R} :
      Laps s v k rows t w l → Venue.elapse w t.config.stepNanos = (true, w') →
      (t.step w').result = .error e →
      Course s v k (ofLaps rows ++ [.asked true, .stepped (.error e)])
        (.error e) (t.step w').strategy (t.step w').venue l

/-- A completed step has its number in its record and is counted. -/
theorem of_step_ok {s : Strategy R} {v : V} {row : StepRecord R}
    (completed : (s.step v).result = .ok row) :
    row.step = s.steps ∧ (s.step v).strategy.steps = s.steps + 1 := by
  constructor
  · rw [(step_of_ok completed).2]
    exact s.steps_prepared v
  · rw [steps_step, completed]
    rfl

private theorem steps_of_step_error {s : Strategy R} {v : V} {e : Error R}
    (failed : (s.step v).result = .error e) : (s.step v).strategy.steps = s.steps := by
  rw [steps_step, failed]
  rfl

namespace Laps

variable {s t : Strategy R} {v w : V} {k l : K} {rows : List (StepRecord R)}

/-- The steps of all laps are counted, and their records are numbered on from the first. -/
theorem steps_eq (laps : Laps s v k rows t w l) :
    t.steps = s.steps + rows.length ∧
      rows.map StepRecord.step = List.range' s.steps rows.length := by
  induction laps with
  | none => exact ⟨rfl, rfl⟩
  | @lap rows row t w w' l l' _ _ completed _ ih =>
    obtain ⟨hsteps, hrows⟩ := ih
    obtain ⟨hrow, hcounted⟩ := of_step_ok completed
    rw [List.length_append, List.length_singleton]
    constructor
    · rw [hcounted, hsteps, Nat.add_assoc]
    · rw [List.map_append, hrows, List.range'_concat, Nat.one_mul, ← hsteps, ← hrow]
      rfl

private theorem ticksFor {n : Nat} (laps : Laps s v k rows t w l) (lasts : s.TicksFor n v) :
    ∃ left, n = rows.length + left ∧ t.TicksFor left w := by
  induction laps with
  | none => exact ⟨n, (Nat.zero_add n).symm, lasts⟩
  | @lap rows row t w w' l l' _ ticked _ _ ih =>
    obtain ⟨left, hn, hleft⟩ := ih
    cases left with
    | zero =>
      rw [TicksFor, ticked] at hleft
      cases hleft
    | succ left =>
      rw [TicksFor, ticked] at hleft
      refine ⟨left, ?_, hleft.2⟩
      rw [hn, List.length_append, List.length_singleton]
      omega

/-- When the clock ticks no more there were as many laps as ticks. -/
theorem length_eq {w' : V} {n : Nat} (laps : Laps s v k rows t w l) (lasts : s.TicksFor n v)
    (last : Venue.elapse w t.config.stepNanos = (false, w')) : rows.length = n := by
  obtain ⟨left, hn, hleft⟩ := laps.ticksFor lasts
  cases left with
  | zero => exact hn.symm
  | succ left =>
    rw [TicksFor, last] at hleft
    cases hleft.1

private theorem length_lt {w' : V} {n : Nat} (laps : Laps s v k rows t w l) (lasts : s.TicksFor n v)
    (ticked : Venue.elapse w t.config.stepNanos = (true, w')) : rows.length < n := by
  obtain ⟨left, hn, hleft⟩ := laps.ticksFor lasts
  cases left with
  | zero =>
    rw [TicksFor, ticked] at hleft
    cases hleft
  | succ left => omega

end Laps

/-! ## Runs -/

private theorem Laps.course_conclude {s t : Strategy R} {v w w' : V} {k l : K}
    {rows : List (StepRecord R)}
    (laps : Laps s v k rows t w l) (last : Venue.elapse w t.config.stepNanos = (false, w'))
    (past : Array (Event R)) :
    ∃ trace, Course s v k trace (t.conclude w' l past).result (t.conclude w' l past).strategy
      (t.conclude w' l past).venue (t.conclude w' l past).recorder := by
  unfold conclude
  rcases hflush : Recorder.flush l with ⟨e | _, l'⟩
  · exact ⟨_, .ended laps last hflush⟩
  · exact ⟨_, .ended laps last hflush⟩

/-- A run that made some laps and has a horizon beyond the ticks that are left takes its course. -/
theorem Laps.course_runFrom {s t : Strategy R} {v w : V} {k l : K} {rows : List (StepRecord R)}
    (laps : Laps s v k rows t w l) {left horizon : Nat} (lasts : t.TicksFor left w)
    (beyond : left < horizon) (past : Array (Event R)) :
    ∃ trace, Course s v k trace (t.runFrom horizon w l past).result
      (t.runFrom horizon w l past).strategy (t.runFrom horizon w l past).venue
      (t.runFrom horizon w l past).recorder := by
  -- the laps made so far grow while the horizon shrinks, so they are general here
  induction horizon generalizing t w l rows left past with
  | zero => cases beyond
  | succ horizon ih =>
    unfold runFrom
    rcases hclock : Venue.elapse w t.config.stepNanos with ⟨_ | _, w'⟩
    · exact laps.course_conclude hclock past
    · dsimp only
      cases hstep : (t.step w').result with
      | error e => exact ⟨_, .failed laps hclock hstep⟩
      | ok row =>
        dsimp only
        rcases hrecord : Recorder.record l row with ⟨e | _, l'⟩
        · exact ⟨_, .refused laps hclock hstep hrecord⟩
        · cases left with
          | zero =>
            rw [TicksFor, hclock] at lasts
            cases lasts
          | succ left =>
            rw [TicksFor, hclock] at lasts
            exact ih (laps.lap hclock hstep hrecord) lasts.2 (by omega) _

/-- A run takes its course when the venue has no more ticks left than it is said to have. -/
theorem course_run (s : Strategy R) (v : V) (k : K) {n ticks : Nat} (lasts : s.TicksFor n v)
    (enough : n ≤ ticks) :
    ∃ trace, Course s v k trace (s.run ticks v k).result (s.run ticks v k).strategy
      (s.run ticks v k).venue (s.run ticks v k).recorder :=
  Laps.none.course_runFrom lasts (by omega) _

/-- How a course ends: with the data, with a record that is refused, or with a step that fails. -/
theorem Course.ends {s t : Strategy R} {v w : V} {k l : K} {trace : List (Effect R)}
    {result : Except (Error R) (Summary R)} {n : Nat} (course : Course s v k trace result t w l)
    (lasts : s.TicksFor n v) :
    ∃ rows, rows.map StepRecord.step = List.range' s.steps rows.length ∧
      ((∃ flushed, trace = ofLaps rows ++ [.asked false, .finished, .flushed flushed] ∧
          rows.length = n ∧ result = flushed.map (fun _ ↦ t.summary) ∧ t.steps = s.steps + n) ∨
        (∃ row e, trace = ofLaps rows ++
            [.asked true, .stepped (.ok row), .recorded row (.error e)] ∧
          rows.length < n ∧ result = .error e ∧ row.step = s.steps + rows.length ∧
          t.steps = s.steps + rows.length + 1) ∨
        (∃ e, trace = ofLaps rows ++ [.asked true, .stepped (.error e)] ∧
          rows.length < n ∧ result = .error e ∧ t.steps = s.steps + rows.length)) := by
  cases course with
  | @ended rows t w w' _ _ flushed laps last _ =>
    obtain ⟨hsteps, hrows⟩ := laps.steps_eq
    have hall : rows.length = n := laps.length_eq lasts last
    refine ⟨rows, hrows, .inl ⟨flushed, rfl, hall, rfl, ?_⟩⟩
    rw [finish_frame, ← hall]
    exact hsteps
  | @refused rows row t w w' _ _ e laps ticked completed _ =>
    obtain ⟨hsteps, hrows⟩ := laps.steps_eq
    obtain ⟨hrow, hcounted⟩ := of_step_ok completed
    refine ⟨rows, hrows, .inr (.inl ⟨row, e, rfl, laps.length_lt lasts ticked, rfl, ?_, ?_⟩)⟩
    · rw [hrow, hsteps]
    · rw [hcounted, hsteps]
  | @failed rows t w w' _ e laps ticked failed =>
    obtain ⟨hsteps, hrows⟩ := laps.steps_eq
    refine ⟨rows, hrows, .inr (.inr ⟨e, rfl, laps.length_lt lasts ticked, rfl, ?_⟩)⟩
    rw [steps_of_step_error failed, hsteps]

end Strategy

namespace Chronicle

variable {c : Config R} {past : List (Deed R V)} {s : Strategy R} {v : V}

/-- The steps that are counted are those that were completed. -/
theorem steps_eq (chronicle : Chronicle c past s v) : s.steps = past.countP Deed.isCompleted := by
  induction chronicle with
  | start v started =>
    obtain ⟨-, rfl⟩ := Strategy.start_eq_ok_iff.mp started
    rfl
  | market _ w ih => exact ih
  | @step past s v _ ih =>
    rw [Strategy.steps_step, List.countP_append, List.countP_singleton, ← ih, Deed.isCompleted]
    cases (s.step v).result.isOk <;> rfl
  | @finish past s v _ ih =>
    rw [Strategy.finish_frame, List.countP_append, List.countP_singleton, ← ih]
    rfl

/-- What a strategy does in a run, after any past, at a venue whose clock ticks `n` times and then
no more, with a recorder that may refuse any record and the flush. It hands on the records of its
laps, numbered on from the steps completed before, and then one of three things happens. The clock
has ticked `n` times and ticks no more: then the calibration is closed and the recorder flushed,
once each, and the run has the totals of the strategy for a result unless the flush failed. The
recorder refuses a record, whose step is counted, or a step fails, which is not: then that failure
is the result, with no calibration closed and nothing flushed. -/
theorem run_takes_course (chronicle : Chronicle c past s v) (k : K) {n ticks : Nat}
    (lasts : s.TicksFor n v) (enough : n ≤ ticks) :
    let first := past.countP Deed.isCompleted
    let out := s.run ticks v k
    ∃ trace rows, s.Course v k trace out.result out.strategy out.venue out.recorder ∧
      rows.map StepRecord.step = List.range' first rows.length ∧
      ((∃ flushed, trace = ofLaps rows ++ [.asked false, .finished, .flushed flushed] ∧
          rows.length = n ∧ trace.countP isAsked = n + 1 ∧
          out.result = flushed.map (fun _ ↦ out.strategy.summary) ∧
          out.strategy.steps = first + n ∧ out.strategy.summary.steps = first + n ∧
          out.strategy.summary.finalState = out.strategy.calibration) ∨
        (∃ row e, trace = ofLaps rows ++
            [.asked true, .stepped (.ok row), .recorded row (.error e)] ∧
          rows.length < n ∧ trace.countP isAsked = rows.length + 1 ∧ out.result = .error e ∧
          row.step = first + rows.length ∧ out.strategy.steps = first + rows.length + 1) ∨
        (∃ e, trace = ofLaps rows ++ [.asked true, .stepped (.error e)] ∧
          rows.length < n ∧ trace.countP isAsked = rows.length + 1 ∧ out.result = .error e ∧
          out.strategy.steps = first + rows.length)) := by
  intro first out
  have hfirst : s.steps = first := chronicle.steps_eq
  obtain ⟨trace, course⟩ := s.course_run v k lasts enough
  obtain ⟨rows, hrows, hends⟩ := course.ends lasts
  rw [hfirst] at hrows hends
  refine ⟨trace, rows, course, hrows, ?_⟩
  rcases hends with ⟨flushed, rfl, hall, hresult, hsteps⟩ |
    ⟨row, e, rfl, hlt, hresult, hrow, hsteps⟩ | ⟨e, rfl, hlt, hresult, hsteps⟩
  · refine .inl ⟨flushed, rfl, hall, ?_, hresult, hsteps, hsteps, rfl⟩
    rw [List.countP_append, Effect.countP_isAsked_ofLaps, hall]
    rfl
  · refine .inr (.inl ⟨row, e, rfl, hlt, ?_, hresult, hrow, hsteps⟩)
    rw [List.countP_append, Effect.countP_isAsked_ofLaps]
    rfl
  · refine .inr (.inr ⟨e, rfl, hlt, ?_, hresult, hsteps⟩)
    rw [List.countP_append, Effect.countP_isAsked_ofLaps]
    rfl

/-- A run behind a completed step: two more laps, and the end of the data. -/
theorem run_takes_course_quiet :
    let quiet : ReplayVenue Float := ReplayVenue.idle 100 101 0.5
    let v := (quiet.push ⟨100, 101, []⟩).push ⟨100, 102, []⟩
    let past := (Strategy.fresh Config.brief).stepsAt [quiet]
    let s := (Strategy.fresh Config.brief).after [quiet]
    let k : Interrupted (Collected Float) := ⟨⟨#[]⟩, some 2, false, 0, 0⟩
    let out := s.run 2 v k
    past.countP Deed.isCompleted = 1 ∧ s.TicksFor 2 v ∧ out.result.isOk = true ∧
      out.recorder.accepted = 2 ∧ out.recorder.flushes = 1 ∧
      ∃ trace, ∃ rows : List (StepRecord Float), ∃ flushed,
        s.Course v k trace out.result out.strategy out.venue out.recorder ∧
        trace = ofLaps rows ++ [.asked false, .finished, .flushed flushed] ∧
        rows.map StepRecord.step = [1, 2] ∧ trace.countP isAsked = 3 ∧ out.strategy.steps = 3 := by
  intro quiet v past s k out
  obtain ⟨w, hchronicle⟩ : ∃ w, Chronicle Config.brief past s w :=
    Chronicle.of_stepsAt (by decide +kernel) quiet [quiet]
  have hfirst : past.countP Deed.isCompleted = 1 := by decide +kernel
  have hticks : s.TicksFor 2 v := Strategy.ticksFor_of_clock ReplayVenue.clock s v
  have hok : out.result.isOk = true := by decide +kernel
  refine ⟨hfirst, hticks, hok, by decide +kernel, by decide +kernel, ?_⟩
  obtain ⟨trace, rows, hcourse, hrows, hends⟩ :=
    (hchronicle.market v).run_takes_course k hticks (Nat.le_refl 2)
  rw [hfirst] at hrows hends
  rcases hends with ⟨flushed, htrace, hall, hasked, -, hsteps, -⟩ | ⟨_, e, -, -, -, hresult, -⟩ |
    ⟨e, -, -, -, hresult, -⟩
  · rw [hall] at hrows
    exact ⟨trace, rows, flushed, hcourse, htrace, hrows, hasked, hsteps⟩
  · rw [hresult] at hok
    cases hok
  · rw [hresult] at hok
    cases hok

end Chronicle

end MarketMaking
