import MarketMaking.Proofs.Schedule

/-!
# The count of steps and the history

A step is recorded when it begins and counted when it is completed. A step that the history refuses
is neither. So the count of steps falls behind the history by the steps that were broken off: those
that recorded their market and then failed in their orders. As the count names the step that an
attempt to calibrate is made for, the step after one that was broken off makes its attempt in the
same name.
-/

namespace MarketMaking

open Event (attempts)

variable {R V : Type} [Scalar R] [Venue V R]

namespace Deed

/-- Was this a step that recorded its market and then failed in its orders? -/
def isBrokenOff : Deed R V → Bool
  | step s v => s.history.refusal?.isNone && !(s.step v).result.isOk
  | finish _ => false

/-- The steps in whose names this one attempted to calibrate, if it was a step. -/
def attempted : Deed R V → List Nat
  | step s v => (attempts (s.step v).events).map Prod.fst
  | finish _ => []

end Deed

namespace Strategy

variable {s : Strategy R} {v : V}

/-- A step is recorded unless the history refuses it. -/
theorem recorded_step (s : Strategy R) (v : V) :
    (s.step v).strategy.history.recorded =
      s.history.recorded + s.history.refusal?.isNone.toNat := by
  cases hr : s.history.refusal? with
  | some e =>
    rw [step_of_refusal hr]
    rfl
  | none =>
    rw [history_step hr, ArrivalHistory.recorded_add]
    rfl

/-- A step is counted when it is completed. -/
theorem steps_step (s : Strategy R) (v : V) :
    (s.step v).strategy.steps = s.steps + (s.step v).result.isOk.toNat := by
  cases hr : s.history.refusal? with
  | some e => rw [step_of_refusal hr]; rfl
  | none =>
    rw [step_of_room hr]
    cases (s.pass v).result with
    | error e => exact steps_prepared s v
    | ok r => exact congrArg (· + 1) (steps_prepared s v)

/-- What is recorded beyond what is counted grows by the step that is broken off. -/
theorem lag_step (s : Strategy R) (v : V) :
    (s.step v).strategy.history.recorded + s.steps =
      s.history.recorded + (s.step v).strategy.steps +
        (Deed.step s v).isBrokenOff.toNat := by
  rw [recorded_step, steps_step, Deed.isBrokenOff]
  cases hr : s.history.refusal? with
  | some e =>
    rw [step_of_refusal hr]
    exact Nat.add_right_comm _ _ _
  | none =>
    cases (s.step v).result.isOk <;> simp <;> omega

/-- An attempt in a step is made in the name of the step that is counted next. -/
theorem attempted_step (room : s.history.refusal? = none) (v : V) :
    (Deed.step s v).attempted = if (s.observed v).1.isDue then [s.steps] else [] := by
  have hattempts : (Deed.step s v).attempted =
      (attempts (s.observed v).1.recalibrated.2).map Prod.fst := by
    rw [Deed.attempted, attempts_step room]
  rw [hattempts, recalibrated]
  split
  · rw [attempts_calibrate]
    rfl
  · rfl

/-- A step attempts nothing in any other name than that of the step counted next, and nothing when
the history refuses it. -/
theorem eq_steps_of_mem_attempted {i : Nat} (mem : i ∈ (Deed.step s v).attempted) :
    i = s.steps ∧ s.history.refusal? = none := by
  cases hr : s.history.refusal? with
  | some e =>
    rw [Deed.attempted, step_of_refusal hr] at mem
    cases mem
  | none =>
    rw [attempted_step hr] at mem
    split at mem
    · exact ⟨List.mem_singleton.mp mem, rfl⟩
    · cases mem

end Strategy

private theorem Deed.pairwise_attempted (deed : Deed R V) : deed.attempted.Pairwise (· < ·) := by
  cases deed with
  | finish s => exact .nil
  | step s v =>
    cases hr : s.history.refusal? with
    | some e =>
      rw [attempted, Strategy.step_of_refusal hr]
      exact .nil
    | none =>
      rw [Strategy.attempted_step hr]
      split
      · exact List.pairwise_singleton _ _
      · exact .nil

namespace Chronicle

variable {c : Config R} {past : List (Deed R V)} {s : Strategy R} {v : V}

/-- The history has recorded all steps that are counted, and those that were broken off. -/
theorem recorded_eq (chronicle : Chronicle c past s v) :
    s.history.recorded = s.steps + past.countP Deed.isBrokenOff := by
  induction chronicle with
  | start v started =>
    obtain ⟨-, rfl⟩ := Strategy.start_eq_ok_iff.mp started
    rfl
  | market _ w ih => exact ih
  | @step past s v _ ih =>
    have hlag := s.lag_step v
    rw [List.countP_append, List.countP_singleton]
    cases hbroken : (Deed.step s v).isBrokenOff <;> simp [hbroken] at hlag ⊢ <;> omega
  | @finish past s v _ ih =>
    rw [Strategy.finish_frame, List.countP_append, List.countP_singleton]
    exact ih

/-- No attempt so far was made in the name of a later step than the one that is counted next, and
those that were made in its name were broken off. -/
theorem attempted_le (chronicle : Chronicle c past s v) :
    ∀ deed ∈ past, ∀ i ∈ deed.attempted,
      i ≤ s.steps ∧ (i = s.steps → deed.isBrokenOff = true) := by
  induction chronicle with
  | start v started =>
    intro deed mem
    cases mem
  | market _ w ih => exact ih
  | @step past s v _ ih =>
    have hcount := s.steps_step v
    intro deed mem i attempted
    rcases List.mem_append.mp mem with hpast | hlast
    · obtain ⟨hle, hbroken⟩ := ih deed hpast i attempted
      exact ⟨by omega, fun same ↦ hbroken (by omega)⟩
    · obtain rfl := List.mem_singleton.mp hlast
      obtain ⟨rfl, hroom⟩ := Strategy.eq_steps_of_mem_attempted attempted
      refine ⟨by omega, fun same ↦ ?_⟩
      -- the count stands still when the step is not completed
      have hfailed : (s.step v).result.isOk = false := by
        cases hresult : (s.step v).result.isOk with
        | false => rfl
        | true =>
          rw [hresult, Bool.toNat_true] at hcount
          omega
      rw [Deed.isBrokenOff, hroom, hfailed]
      rfl
  | @finish past s v _ ih =>
    intro deed mem i attempted
    rw [Strategy.finish_frame]
    rcases List.mem_append.mp mem with hpast | hlast
    · exact ih deed hpast i attempted
    · obtain rfl := List.mem_singleton.mp hlast
      cases attempted

/-- The attempts of steps are made in the names of ever later steps, but for the attempt after a
step that was broken off, which may be in the name of that step. -/
theorem pairwise_attempted (chronicle : Chronicle c past s v) :
    past.Pairwise fun earlier later ↦ ∀ i ∈ earlier.attempted, ∀ j ∈ later.attempted,
      i ≤ j ∧ (i = j → earlier.isBrokenOff = true) := by
  induction chronicle with
  | start v started => exact .nil
  | market _ w ih => exact ih
  | @step past s v chronicle ih =>
    refine List.pairwise_append.mpr ⟨ih, List.pairwise_singleton _ _, ?_⟩
    intro earlier mem later last i hi j hj
    obtain rfl := List.mem_singleton.mp last
    obtain ⟨rfl, -⟩ := Strategy.eq_steps_of_mem_attempted hj
    exact chronicle.attempted_le earlier mem i hi
  | @finish past s v _ ih =>
    refine List.pairwise_append.mpr ⟨ih, List.pairwise_singleton _ _, ?_⟩
    intro earlier mem later last i hi j hj
    obtain rfl := List.mem_singleton.mp last
    cases hj

/-- Whatever steps were made, completed or failed, the history has recorded the steps that are
counted and, beyond them, those that were broken off. So the two counts agree as long as no step was
broken off, and not after that. As long as they agree, the step that a calibration is made for is
that of the latest sample, and no two steps make an attempt in one name; and in no case do two steps
unless the earlier one was broken off. -/
theorem recorded_eq_steps_add (chronicle : Chronicle c past s v) :
    s.history.recorded = s.steps + past.countP Deed.isBrokenOff ∧
      (s.history.recorded = s.steps ↔ ∀ deed ∈ past, deed.isBrokenOff = false) ∧
      (past.Pairwise fun earlier later ↦ ∀ i ∈ earlier.attempted, ∀ j ∈ later.attempted,
        i ≤ j ∧ (i = j → earlier.isBrokenOff = true)) ∧
      ((∀ deed ∈ past, deed.isBrokenOff = false) →
        (∀ w : V, (s.observed w).1.history.recorded = (s.observed w).1.steps + 1) ∧
          (past.flatMap Deed.attempted).Pairwise (· < ·)) := by
  have hrecorded := chronicle.recorded_eq
  have hpairwise := chronicle.pairwise_attempted
  have hagree : s.history.recorded = s.steps ↔ ∀ deed ∈ past, deed.isBrokenOff = false := by
    rw [hrecorded, Nat.add_eq_left, List.countP_eq_zero]
    simp only [Bool.not_eq_true]
  refine ⟨hrecorded, hagree, hpairwise, fun unbroken ↦ ⟨fun w ↦ ?_, ?_⟩⟩
  · show (s.history.add (Venue.book w) (Venue.lastTrades w)).recorded = s.steps + 1
    rw [ArrivalHistory.recorded_add, hagree.mpr unbroken]
  · refine List.pairwise_flatMap.mpr ⟨fun deed _ ↦ deed.pairwise_attempted, ?_⟩
    refine hpairwise.imp_of_mem fun {earlier later} mem _ apart i hi j hj ↦ ?_
    obtain ⟨hle, hbroken⟩ := apart i hi j hj
    refine Nat.lt_of_le_of_ne hle fun same ↦ ?_
    exact Bool.false_ne_true ((unbroken earlier mem).symm.trans (hbroken same))

/-- Four steps on a history of three samples, of which the last one is refused. -/
theorem recorded_eq_steps_add_refused :
    let c := { Config.brief with historyOverflow := .fail }
    let quiet : ReplayVenue Float := ReplayVenue.idle 100 101 0.5
    let past := (Strategy.fresh c).stepsAt [quiet, quiet, quiet, quiet]
    let s := (Strategy.fresh c).after [quiet, quiet, quiet, quiet]
    past.any Deed.isFailed = true ∧ past.flatMap Deed.attempted = [1, 2] ∧
      (∀ deed ∈ past, deed.isBrokenOff = false) ∧
      s.history.recorded = s.steps + past.countP Deed.isBrokenOff ∧ s.history.recorded = s.steps ∧
      (past.flatMap Deed.attempted).Pairwise (· < ·) := by
  intro c quiet past s
  obtain ⟨v, hchronicle⟩ : ∃ v, Chronicle c past s v :=
    Chronicle.of_stepsAt (by decide +kernel) quiet [quiet, quiet, quiet, quiet]
  have hunbroken : ∀ deed ∈ past, deed.isBrokenOff = false := by decide +kernel
  obtain ⟨hrecorded, hagree, -, hlast⟩ := hchronicle.recorded_eq_steps_add
  exact ⟨by decide +kernel, by decide +kernel, hunbroken, hrecorded, hagree.mpr hunbroken,
    (hlast hunbroken).2⟩

end Chronicle

end MarketMaking
