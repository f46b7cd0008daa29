import MarketMaking.Proofs.Acceptance
import MarketMaking.Proofs.Step
import MarketMaking.Proofs.Tape
import MarketMaking.Venue.Replay

/-!
# Compaction is invisible

A strategy that drops old samples when its history is full does what it would do with a history that
never fills. The two histories hold the end of one tape, and every reader of a history asks for its
last calibration window only, of which no sample is ever dropped.
-/

namespace MarketMaking

variable {R V : Type}

/-- This configuration with a history that holds `capacity` samples and then refuses to go on. -/
def Config.uncompacted (c : Config R) (capacity : Nat) : Config R :=
  { c with historyOverflow := .fail, historyCapacity := capacity }

/-- Is this the event of dropping old samples? -/
def Event.isCompaction : Event R → Bool
  | historyCompacted .. => true
  | _ => false

/-- What happens next to a strategy. -/
inductive Turn (V : Type) where
  /-- The market moves on and the strategy is stepped. -/
  | tick (move : V → V)
  /-- The data has come to its end. -/
  | finish

/-- Is this a turn in which the strategy is stepped? -/
def Turn.isTick : Turn V → Bool
  | tick _ => true
  | finish => false

/-- What can be seen after a turn: the result of the step, if there was one, all events except the
dropping of samples, the venue, and what the strategy tells of itself. -/
structure Observation (R V : Type) where
  result : Option (Except (Error R) (StepRecord R))
  events : List (Event R)
  venue : V
  calibration : Calibration R
  steps : Nat
  recorded : Nat
  summary : Summary R

variable [Scalar R]

/-! ### Two histories of one tape -/

namespace ArrivalHistory

/-- The history `h` drops old samples where `g` still has room for `left` steps. Both hold the end
of one tape, and `h` keeps its last `window` samples whenever it drops others. -/
structure SameTape (h g : ArrivalHistory R) (window left : Nat) : Prop where
  tape : ∃ tape, h.Holds tape ∧ g.Holds tape
  mid : h.mid = g.mid
  keeps : h.Keeps window
  compacts : h.overflow = .compact
  retain : h.retain = window
  fits : window < h.capacity
  intact : g.dropped = 0
  room : g.size + left ≤ g.capacity

namespace SameTape

variable {h g : ArrivalHistory R} {window left : Nat}

omit [Scalar R] in
/-- Both histories have the same last window. -/
theorem last_eq (same : SameTape h g window left) : h.last window = g.last window := by
  obtain ⟨tape, hh, hg⟩ := same.tape
  rw [hh.last_eq same.keeps, hg.last_eq (.inl same.intact)]

omit [Scalar R] in
/-- Both histories have recorded as many steps. -/
theorem recorded_eq (same : SameTape h g window left) : h.recorded = g.recorded := by
  obtain ⟨tape, hh, hg⟩ := same.tape
  rw [hh.recorded_eq, hg.recorded_eq]

omit [Scalar R] in
/-- The window of one history is full when that of the other is. -/
theorem le_size_iff (same : SameTape h g window left) : window ≤ h.size ↔ window ≤ g.size := by
  rw [same.keeps.le_size_iff, same.recorded_eq, recorded, same.intact, Nat.zero_add]

omit [Scalar R] in
/-- A calibration of that window is due by one history when it is due by the other. -/
theorem isDue_eq (same : SameTape h g window left) (c : Calibrator R) (full : c.window = window)
    (step : Nat) : c.isDue step g.size = c.isDue step h.size := by
  have hs : decide (c.window ≤ g.size) = decide (c.window ≤ h.size) := by
    rw [full]
    exact decide_eq_decide.mpr same.le_size_iff.symm
  rw [Calibrator.isDue, Calibrator.isDue, hs]

omit [Scalar R] in
/-- A history that may drop samples refuses no step. -/
theorem refusal_compacting (same : SameTape h g window left) : h.refusal? = none := by
  have hr := same.retain
  have hf := same.fits
  rw [refusal?_eq_none_iff]
  by_cases hs : h.size < h.capacity
  · exact .inl hs
  · exact .inr ⟨same.compacts, by omega⟩

omit [Scalar R] in
private theorem refusal_roomy (same : SameTape h g window (left + 1)) : g.refusal? = none := by
  have hr := same.room
  rw [refusal?_eq_none_iff]
  exact .inl (by omega)

omit [Scalar R] in
/-- Two histories without samples are on one tape. -/
theorem start {capacity room : Nat} (fits : window < capacity) (h : left ≤ room) :
    SameTape (empty capacity .compact window : ArrivalHistory R) (empty room .fail window)
      window left where
  tape := ⟨[], holds_empty _ _ _, holds_empty _ _ _⟩
  mid := rfl
  keeps := .inl rfl
  compacts := rfl
  retain := Nat.min_eq_left (Nat.le_of_lt fits)
  fits := fits
  intact := rfl
  room := by
    show 0 + left ≤ room
    omega

/-- One more step leaves the two histories on one tape. -/
theorem add (same : SameTape h g window (left + 1)) (book : Book R) (trades : List (Trade R)) :
    SameTape (h.add book trades) (g.add book trades) window left := by
  have hr := same.room
  have hroom : g.size < g.capacity := by omega
  obtain ⟨tape, hh, hg⟩ := same.tape
  have hsample : h.sampleOf book trades = g.sampleOf book trades := by
    simp only [sampleOf, same.mid]
  constructor
  · exact ⟨_, hh.add book trades, hsample ▸ hg.add book trades⟩
  · rw [mid_add, mid_add]
  · exact same.keeps.add (Nat.le_of_eq same.retain.symm) (Nat.le_of_lt same.fits) book trades
  · rw [overflow_add, same.compacts]
  · rw [retain_add, same.retain]
  · rw [capacity_add]
    exact same.fits
  · rw [dropped_add_of_room _ _ _ hroom, same.intact]
  · rw [size_add_of_room _ _ _ hroom, capacity_add]
    omega

end SameTape

end ArrivalHistory

open ArrivalHistory (SameTape)

namespace Strategy

/-- This strategy with the history `g` that holds `capacity` samples and drops none. -/
def shadow (s : Strategy R) (capacity : Nat) (g : ArrivalHistory R) : Strategy R :=
  { s with config := s.config.uncompacted capacity, history := g }

variable {s : Strategy R} {g : ArrivalHistory R} {left : Nat} (capacity : Nat)

private theorem calibrate_shadow (same : SameTape s.history g s.config.calibrationWindow left)
    (step : Nat) :
    (s.shadow capacity g).calibrate step =
      ((s.calibrate step).1.shadow capacity g, (s.calibrate step).2) := by
  have hw : (s.shadow capacity g).window = s.window := same.last_eq.symm
  have hfit : (s.shadow capacity g).fitWindow step =
      ((s.fitWindow step).1.shadow capacity g, (s.fitWindow step).2) := by
    unfold fitWindow
    rw [hw]
    simp only [shadow, Config.calibrator, Config.uncompacted, Config.windowSeconds,
      Config.stepSeconds]
    split <;> rfl
  have hann (t : Strategy R) : (t.shadow capacity g).announce step =
      ((t.announce step).1.shadow capacity g, (t.announce step).2) := by
    unfold announce
    by_cases hk : (!t.announced && t.calibration.isKnown) = true
    · rw [if_pos hk]
      exact if_pos hk
    · rw [if_neg hk]
      exact if_neg hk
  rw [calibrate_eq, hfit, calibrate_eq, hann]

private theorem recalibrated_shadow (same : SameTape s.history g s.config.calibrationWindow left) :
    (s.shadow capacity g).recalibrated =
      (s.recalibrated.1.shadow capacity g, s.recalibrated.2) := by
  have hdue : (s.shadow capacity g).isDue = s.isDue :=
    same.isDue_eq s.config.calibrator rfl s.steps
  unfold recalibrated
  rw [hdue]
  split
  · exact calibrate_shadow capacity same s.steps
  · rfl

private theorem finish_shadow (same : SameTape s.history g s.config.calibrationWindow left) :
    (s.shadow capacity g).finish = (s.finish.1.shadow capacity g, s.finish.2) := by
  have hfull : decide (s.config.calibrationWindow ≤ g.size) =
      decide (s.config.calibrationWindow ≤ s.history.size) :=
    decide_eq_decide.mpr same.le_size_iff.symm
  have hdue := same.isDue_eq s.config.calibrator rfl (s.steps - 1)
  have hcal := calibrate_shadow capacity same (s.steps - 1)
  unfold finish
  show (if decide (s.config.calibrationWindow ≤ g.size) && decide (0 < s.steps)
      && !s.config.calibrator.isDue (s.steps - 1) g.size
    then (s.shadow capacity g).calibrate (s.steps - 1) else (s.shadow capacity g, [])) = _
  rw [hfull, hdue, hcal]
  split <;> rfl

variable [Venue V R]

/-- The strategy as it is seen after a turn. -/
def seen (s : Strategy R) (v : V) (result : Option (Except (Error R) (StepRecord R)))
    (events : List (Event R)) : Observation R V where
  result
  events := events.filter (!·.isCompaction)
  venue := v
  calibration := s.calibration
  steps := s.steps
  recorded := s.history.recorded
  summary := s.summary

/-- What is seen of a strategy from turn to turn. -/
def observations (s : Strategy R) (v : V) : List (Turn V) → List (Observation R V)
  | [] => []
  | .tick move :: turns =>
      let o := s.step (move v)
      o.strategy.seen o.venue (some o.result) o.events :: o.strategy.observations o.venue turns
  | .finish :: turns =>
      let (s, events) := s.finish
      s.seen v none events :: s.observations v turns

private theorem observed_shadow (same : SameTape s.history g s.config.calibrationWindow (left + 1))
    (v : V) :
    (s.shadow capacity g).observed v =
      ((s.observed v).1.shadow capacity (g.add (Venue.book v) (Venue.lastTrades v)), []) := by
  have hroom : g.size < g.capacity := by
    have := same.room
    omega
  have hd := ArrivalHistory.dropped_add_of_room g (Venue.book v) (Venue.lastTrades v) hroom
  unfold observed observe
  simp only [shadow, hd, Nat.sub_self, ↓reduceIte]

private theorem prepared_shadow (same : SameTape s.history g s.config.calibrationWindow (left + 1))
    (v : V) :
    (s.shadow capacity g).prepared v =
      (s.prepared v).shadow capacity (g.add (Venue.book v) (Venue.lastTrades v)) := by
  have hadd := same.add (Venue.book v) (Venue.lastTrades v)
  rw [prepared, observed_shadow capacity same, recalibrated_shadow capacity hadd]
  rfl

/-- A strategy and its shadow come to the same quote. -/
theorem quoted_shadow (same : SameTape s.history g s.config.calibrationWindow (left + 1)) (v : V) :
    (s.shadow capacity g).quoted v = s.quoted v := by
  have hadd := same.add (Venue.book v) (Venue.lastTrades v)
  have hrec := hadd.recorded_eq
  rw [← history_prepared] at hrec
  unfold quoted quotation
  rw [prepared_shadow capacity same, hrec]
  rfl

private theorem preparation_shadow
    (same : SameTape s.history g s.config.calibrationWindow (left + 1)) (v : V) :
    ((s.shadow capacity g).preparation v).filter (!·.isCompaction) =
      (s.preparation v).filter (!·.isCompaction) := by
  have hadd := same.add (Venue.book v) (Venue.lastTrades v)
  have hdrop : (s.observed v).2.filter (!·.isCompaction) = [] := by
    unfold observed observe
    simp only
    split <;> rfl
  unfold preparation
  rw [observed_shadow capacity same, recalibrated_shadow capacity hadd, quoted_shadow capacity same]
  simp only [List.filter_append, hdrop, List.filter_nil]

/-- The shadow goes through a step as the strategy does: with the same result, the same venue after
it and the same events up to the dropping of samples, and it stays a shadow. -/
theorem step_shadow (same : SameTape s.history g s.config.calibrationWindow (left + 1)) (v : V) :
    ((s.shadow capacity g).step v).result = (s.step v).result ∧
      ((s.shadow capacity g).step v).venue = (s.step v).venue ∧
      ((s.shadow capacity g).step v).events.filter (!·.isCompaction) =
        (s.step v).events.filter (!·.isCompaction) ∧
      ∃ g', ((s.shadow capacity g).step v).strategy = (s.step v).strategy.shadow capacity g' ∧
        SameTape (s.step v).strategy.history g' (s.step v).strategy.config.calibrationWindow
          left := by
  have hpass : (s.shadow capacity g).pass v = s.pass v := by
    unfold pass
    rw [quoted_shadow capacity same]
    rfl
  have hadd := same.add (Venue.book v) (Venue.lastTrades v)
  have hevents := preparation_shadow capacity same v
  have hhistory : SameTape (s.prepared v).history (g.add (Venue.book v) (Venue.lastTrades v))
      (s.prepared v).config.calibrationWindow left := by
    rw [history_prepared, config_prepared]
    exact hadd
  have hroomy : (s.shadow capacity g).history.refusal? = none := same.refusal_roomy
  rw [step_of_room hroomy, step_of_room same.refusal_compacting, hpass,
    prepared_shadow capacity same, quoted_shadow capacity same]
  cases (s.pass v).result with
  | error e =>
    refine ⟨rfl, rfl, ?_, _, rfl, hhistory⟩
    rw [List.filter_append, List.filter_append, hevents]
  | ok r =>
    refine ⟨rfl, rfl, ?_, _, rfl, hhistory⟩
    rw [List.filter_append, List.filter_append, hevents]

/-- What is seen of a strategy is seen of its shadow, as long as the shadow has room. -/
theorem observations_shadow (turns : List (Turn V)) (v : V)
    (same : SameTape s.history g s.config.calibrationWindow (turns.countP Turn.isTick)) :
    (s.shadow capacity g).observations v turns = s.observations v turns := by
  induction turns generalizing s g v with
  | nil => rfl
  | cons turn turns ih =>
    cases turn with
    | tick move =>
      rw [List.countP_cons_of_pos (by rfl)] at same
      obtain ⟨hresult, hvenue, hevents, g', hstrategy, hsame⟩ :=
        step_shadow capacity same (move v)
      simp only [observations, hresult, hvenue, hstrategy, ih _ hsame, seen, hevents,
        hsame.recorded_eq]
      rfl
    | finish =>
      rw [List.countP_cons_of_neg (by simp [Turn.isTick])] at same
      have hsame : SameTape s.finish.1.history g s.finish.1.config.calibrationWindow
          (turns.countP Turn.isTick) := by
        rw [finish_frame]
        exact same
      simp only [observations, finish_shadow capacity same, ih _ hsame, seen, hsame.recorded_eq]
      rfl

/-- A strategy that drops old samples when its history is full cannot be told from one with the same
parameters that never has to: from turn to turn both give the same results, make the same requests
in the same order, leave the same venue and tell the same of themselves. -/
theorem observations_uncompacted {c : Config R} {s t : Strategy R} {capacity : Nat}
    (compacts : c.historyOverflow = .compact) (started : Strategy.start c = .ok s)
    (shadowed : Strategy.start (c.uncompacted capacity) = .ok t) (turns : List (Turn V))
    (room : turns.countP Turn.isTick ≤ capacity) (v : V) :
    t.observations v turns = s.observations v turns := by
  obtain ⟨accepted, rfl⟩ := start_eq_ok_iff.mp started
  obtain ⟨-, rfl⟩ := start_eq_ok_iff.mp shadowed
  have hsame := SameTape.start (R := R) (accepted.compact compacts) room
  have hshadow : fresh (c.uncompacted capacity) = (fresh c).shadow capacity
      (ArrivalHistory.empty capacity .fail c.calibrationWindow) := rfl
  rw [hshadow]
  apply observations_shadow
  simp only [fresh, compacts]
  exact hsame

/-- Five steps and the end of the data on a history that is full after three. -/
theorem observations_uncompacted_brief :
    let venue : ReplayVenue Float :=
      (((ReplayVenue.idle 100 101 0.5).push ⟨100, 101, []⟩).push ⟨101, 103, [⟨.buy, 52, 1⟩]⟩).push
        ⟨99, 102, [⟨.sell, 49, 2⟩, ⟨.buy, 51.5, 1⟩]⟩
    let turns := List.replicate 5 (Turn.tick fun v : ReplayVenue Float ↦ (v.elapse 100).2) ++
      [Turn.finish]
    Config.brief.historyOverflow = .compact ∧
      Strategy.start Config.brief = .ok (fresh Config.brief) ∧
      Strategy.start (Config.brief.uncompacted 5) = .ok (fresh (Config.brief.uncompacted 5)) ∧
      turns.countP Turn.isTick ≤ 5 ∧
      (fresh (Config.brief.uncompacted 5)).observations venue turns =
        (fresh Config.brief).observations venue turns := by
  intro venue turns
  have hshadow : Strategy.start (Config.brief.uncompacted 5) =
      .ok (fresh (Config.brief.uncompacted 5)) :=
    start_eq_ok_iff.mpr ⟨(Config.defect?_eq_none_iff_accepted _).mp (by decide +kernel), rfl⟩
  have hroom : turns.countP Turn.isTick ≤ 5 := Nat.le_refl 5
  exact ⟨rfl, Config.start_brief, hshadow, hroom,
    observations_uncompacted rfl Config.start_brief hshadow turns hroom venue⟩

end Strategy

end MarketMaking
