import MarketMaking.Proofs.Chronicle
import MarketMaking.Proofs.View
import MarketMaking.Venue.Replay

/-!
# The clock of a run

A run lets time pass in steps of one duration. As a count of milliseconds that is a word without a
sign, and as a count of nanoseconds it is one with a sign. Products beyond the largest word stop
there, but counts from `2 ^ 63` on have changed their sign before they are multiplied: such a
configuration is accepted, and at every step its clock is asked to go back.
-/

namespace MarketMaking

/-! ### The duration of a step -/

namespace Config

variable {R : Type} {c c' : Config R}

/-- A short step takes its milliseconds in nanoseconds, up to the largest duration. -/
theorem stepNanos_eq_min (short : c.stepMillis < pow2 63) :
    c.stepNanos = min ((c.stepMillis : Int) * 1000000) (pow2 63 - 1 : Int) := by
  have h63 : pow2 63 = 9223372036854775808 := rfl
  have h64 : pow2 64 = 18446744073709551616 := rfl
  have hmillis : Int.bmod (Int.ofNat c.stepMillis) (pow2 64) = c.stepMillis := by
    rw [h64, Int.bmod, Int.ofNat_eq_natCast]
    omega
  rw [stepNanos, hmillis, Binary64.minInt64, Binary64.maxInt64]
  omega

/-- A long step goes back by the milliseconds that it lacks to `2 ^ 64`, down to the smallest
duration. -/
theorem stepNanos_eq_max (long : pow2 63 ≤ c.stepMillis) (fits : c.stepMillis < pow2 64) :
    c.stepNanos = max (-pow2 63 : Int) (((c.stepMillis : Int) - pow2 64) * 1000000) := by
  have h63 : pow2 63 = 9223372036854775808 := rfl
  have h64 : pow2 64 = 18446744073709551616 := rfl
  have hmillis : Int.bmod (Int.ofNat c.stepMillis) (pow2 64) = c.stepMillis - pow2 64 := by
    rw [h64, Int.bmod, Int.ofNat_eq_natCast]
    omega
  rw [stepNanos, hmillis, Binary64.minInt64, Binary64.maxInt64]
  omega

/-- The clock goes forward in short steps, and in no others. -/
theorem stepNanos_pos_iff (positive : 0 < c.stepMillis) (fits : c.stepMillis < pow2 64) :
    0 < c.stepNanos ↔ c.stepMillis < pow2 63 := by
  have h63 : pow2 63 = 9223372036854775808 := rfl
  have h64 : pow2 64 = 18446744073709551616 := rfl
  by_cases short : c.stepMillis < pow2 63
  · have hnanos := stepNanos_eq_min short
    omega
  · have hnanos := stepNanos_eq_max (Nat.not_lt.mp short) fits
    omega

/-- The duration is the number of nanoseconds, or the largest one, in short steps and in no
others. -/
theorem stepNanos_eq_min_iff (positive : 0 < c.stepMillis) (fits : c.stepMillis < pow2 64) :
    c.stepNanos = min ((c.stepMillis : Int) * 1000000) (pow2 63 - 1 : Int) ↔
      c.stepMillis < pow2 63 := by
  constructor
  · intro hnanos
    have h63 : pow2 63 = 9223372036854775808 := rfl
    apply (stepNanos_pos_iff positive fits).mp
    omega
  · exact stepNanos_eq_min

/-- With more milliseconds a step is no shorter, except that a long one is shorter than a short
one. -/
theorem stepNanos_le_iff (fewer : c.stepMillis ≤ c'.stepMillis) (fits : c'.stepMillis < pow2 64) :
    c.stepNanos ≤ c'.stepNanos ↔ (pow2 63 ≤ c'.stepMillis → pow2 63 ≤ c.stepMillis) := by
  have h63 : pow2 63 = 9223372036854775808 := rfl
  have h64 : pow2 64 = 18446744073709551616 := rfl
  by_cases long : pow2 63 ≤ c.stepMillis
  · have hnanos := stepNanos_eq_max long (Nat.lt_of_le_of_lt fewer fits)
    have hnanos' := stepNanos_eq_max (Nat.le_trans long fewer) fits
    omega
  · have hnanos := stepNanos_eq_min (Nat.not_le.mp long)
    by_cases long' : pow2 63 ≤ c'.stepMillis
    · have hnanos' := stepNanos_eq_max long' fits
      omega
    · have hnanos' := stepNanos_eq_min (Nat.not_le.mp long')
      omega

end Config

/-! ### Venues with a record of their clock -/

/-- A venue with the durations that its clock was asked for so far. -/
structure Timed (V : Type) where
  venue : V
  durations : List Int

namespace Timed

variable {R V : Type} [Venue V R]

/-- A venue whose clock has not been asked yet. -/
def start (v : V) : Timed V := ⟨v, []⟩

instance : Venue (Timed V) R where
  elapse t nanos :=
    let (more, venue) := Venue.elapse t.venue nanos
    (more, ⟨venue, t.durations ++ [nanos]⟩)
  bestBid t := Venue.bestBid t.venue
  bestAsk t := Venue.bestAsk t.venue
  tickSize t := Venue.tickSize t.venue
  lastTrades t := Venue.lastTrades t.venue
  clearTrades t := { t with venue := Venue.clearTrades t.venue }
  position t := Venue.position t.venue
  orders t := Venue.orders t.venue
  cancel t id :=
    let (accepted, venue) := Venue.cancel t.venue id
    (accepted, { t with venue })
  submit t request :=
    let (result, venue) := Venue.submit t.venue request
    (result, { t with venue })
  clearInactive t := { t with venue := Venue.clearInactive t.venue }

private theorem durations_elapse {t u : Timed V} {nanos : Int} {more : Bool}
    (asked : Venue.elapse t nanos = (more, u)) : u.durations = t.durations ++ [nanos] :=
  congrArg (·.2.durations) asked.symm

/-- A venue does beside its record what it does without. -/
theorem faithful : Venue.Faithful (venue : Timed V → V) where
  tickSize _ := rfl
  position _ := rfl
  orders _ := rfl
  clearInactive _ := rfl
  cancel _ _ := rfl
  submit _ _ := rfl
  elapse _ _ := rfl
  bestBid _ := rfl
  bestAsk _ := rfl
  lastTrades _ := rfl
  clearTrades _ := rfl

end Timed

namespace Strategy

variable {R V K : Type} [Scalar R] [Venue V R] [Recorder K R]

omit [Venue V R] in
private theorem venue_conclude (s : Strategy R) (v : V) (k : K) (past : Array (Event R)) :
    (s.conclude v k past).venue = v := by
  unfold conclude
  dsimp only
  split <;> rfl

private theorem durations_step (s : Strategy R) (t : Timed V) :
    (s.step t).venue.durations = t.durations := by
  rcases s.venue_step t with hsame | hpass
  · rw [hsame]
  · rw [hpass]
    apply OrderLimits.reconcile_invariant (P := fun u : Timed V ↦ u.durations = t.durations)
    · exact fun _ same ↦ same
    · exact fun _ _ same ↦ same
    · exact fun _ _ same ↦ same
    · rfl

private theorem durations_runFrom (horizon : Nat) (s : Strategy R) (t : Timed V) (k : K)
    (past : Array (Event R)) :
    ∃ n, (s.runFrom horizon t k past).venue.durations =
      t.durations ++ List.replicate n s.config.stepNanos ∧ (n = 0 ↔ horizon = 0) := by
  induction horizon generalizing s t k past with
  | zero => exact ⟨0, by simp [runFrom, venue_conclude], by simp⟩
  | succ horizon ih =>
    rw [runFrom]
    rcases hclock : Venue.elapse t s.config.stepNanos with ⟨_ | _, u⟩
    · exact ⟨1, by simpa [venue_conclude] using Timed.durations_elapse hclock, by simp⟩
    · have hstepped : (s.step u).venue.durations = t.durations ++ [s.config.stepNanos] :=
        (durations_step s u).trans (Timed.durations_elapse hclock)
      dsimp only
      cases (s.step u).result with
      | error e => exact ⟨1, by simpa using hstepped, by simp⟩
      | ok row =>
        dsimp only
        rcases Recorder.record k row with ⟨_ | _, l⟩
        · exact ⟨1, by simpa using hstepped, by simp⟩
        · -- The steps that follow have the same duration, as a step keeps the configuration.
          obtain ⟨n, hn, -⟩ := ih (s.step u).strategy (s.step u).venue l (past ++ (s.step u).events)
          refine ⟨n + 1, ?_, by simp⟩
          rw [hstepped, config_step, List.append_assoc] at hn
          simpa [List.replicate_succ] using hn

/-- The durations that a run asks the clock for, in order. -/
def durations (s : Strategy R) (ticks : Nat) (v : V) (k : K) : List Int :=
  (s.run ticks (Timed.start v) k).venue.durations

/-- A run with a record of its clock is the run without. -/
theorem untimed_run (s : Strategy R) (ticks : Nat) (v : V) (k : K) :
    (s.run ticks (Timed.start v) k).through Timed.venue = s.run ticks v k :=
  Timed.faithful.through_runFrom (ticks + 1) s (Timed.start v) k #[]

/-- A run asks the clock at least once, and each time for the duration of a step. -/
theorem durations_run (s : Strategy R) (ticks : Nat) (v : V) (k : K) :
    s.durations ticks v k ≠ [] ∧ ∀ nanos ∈ s.durations ticks v k, nanos = s.config.stepNanos := by
  obtain ⟨n, hn, hzero⟩ := durations_runFrom (ticks + 1) s (Timed.start v) k #[]
  have hdurations : s.durations ticks v k = List.replicate n s.config.stepNanos := by
    simpa [durations, run, Timed.start] using hn
  rw [hdurations]
  constructor
  · simpa using hzero
  · exact fun _ ↦ List.eq_of_mem_replicate

end Strategy

/-! ### Which clocks go forward -/

/-- The clock goes forward in configurations with fewer than `2 ^ 63` milliseconds in a step. There
the duration is the number of nanoseconds, or the largest one, and more milliseconds do not give a
shorter one. With more milliseconds a configuration is accepted as well, but the duration is
negative, and it is shorter than all positive ones. It is what every run asks the clock for. -/
theorem Config.clock_forward_iff {R V K : Type} [Scalar R] [Venue V R] [Recorder K R]
    {c : Config R} (accepted : c.Accepted) (fits : c.stepMillis < pow2 64) :
    (c.stepNanos = min ((c.stepMillis : Int) * 1000000) (pow2 63 - 1 : Int) ↔
      c.stepMillis < pow2 63) ∧
    (pow2 63 ≤ c.stepMillis →
      c.stepNanos = max (-pow2 63 : Int) (((c.stepMillis : Int) - pow2 64) * 1000000)) ∧
    (∀ c' : Config R, c.stepMillis ≤ c'.stepMillis → c'.stepMillis < pow2 64 →
      (c.stepNanos ≤ c'.stepNanos ↔ (pow2 63 ≤ c'.stepMillis → pow2 63 ≤ c.stepMillis))) ∧
    ∀ (past : List (Deed R V)) (s : Strategy R) (v : V), Chronicle c past s v →
      ∀ (ticks : Nat) (k : K),
        s.durations ticks v k ≠ [] ∧
        (∀ nanos ∈ s.durations ticks v k, nanos = c.stepNanos) ∧
        ((∀ nanos ∈ s.durations ticks v k, 0 < nanos) ↔ c.stepMillis < pow2 63) := by
  refine ⟨stepNanos_eq_min_iff accepted.stepMillis fits, fun long ↦ stepNanos_eq_max long fits,
    fun c' ↦ stepNanos_le_iff, ?_⟩
  intro past s v chronicle ticks k
  obtain ⟨hsome, hall⟩ := s.durations_run ticks v k
  rw [chronicle.config_eq] at hall
  refine ⟨hsome, hall, ?_⟩
  rw [← stepNanos_pos_iff accepted.stepMillis fits]
  constructor
  · intro hforward
    obtain ⟨nanos, hmem⟩ := List.exists_mem_of_ne_nil _ hsome
    rw [← hall nanos hmem]
    exact hforward nanos hmem
  · intro hpos nanos hmem
    rw [hall nanos hmem]
    exact hpos

/-- With the parameters that hold where nothing else is said, every run asks the clock for tenths of
a second. -/
theorem Config.clock_forward_of_default :
    Config.default.Accepted ∧ Config.default.stepMillis < pow2 64 ∧
      Config.default.stepNanos = 100000000 ∧
      ∀ nanos ∈ (Strategy.fresh Config.default).durations 3
        (ReplayVenue.idle 100 101 (0.01 : Float)) (Discard.mk : Discard Float),
          nanos = 100000000 ∧ 0 < nanos := by
  have accepted : Config.default.Accepted :=
    (defect?_eq_none_iff_accepted _).mp (by decide +kernel)
  have fits : Config.default.stepMillis < pow2 64 := by decide +kernel
  have short : Config.default.stepMillis < pow2 63 := by decide +kernel
  obtain ⟨hmin, -, -, hruns⟩ := clock_forward_iff (V := ReplayVenue Float) (K := Discard Float)
    accepted fits
  have hnanos : Config.default.stepNanos = 100000000 := (hmin.mpr short).trans (by decide +kernel)
  obtain ⟨-, hall, hforward⟩ := hruns [] (Strategy.fresh Config.default)
    (ReplayVenue.idle 100 101 0.01) (.start _ (Strategy.start_eq_fresh (by decide +kernel))) 3 ⟨⟩
  exact ⟨accepted, fits, hnanos, fun nanos hmem ↦
    ⟨(hall nanos hmem).trans hnanos, hforward.mpr short nanos hmem⟩⟩

/-- With `2 ^ 63` milliseconds in a step a strategy starts, and its clock goes back by `2 ^ 63`
nanoseconds, where it goes forward with the fewer milliseconds that hold where nothing else is
said. -/
theorem Config.clock_back_of_long_step :
    let c := { Config.default with stepMillis := pow2 63 }
    Strategy.start c = .ok (Strategy.fresh c) ∧ c.stepMillis < pow2 64 ∧
      c.stepNanos = -(pow2 63 : Int) ∧
      c.stepNanos ≠ min ((c.stepMillis : Int) * 1000000) (pow2 63 - 1 : Int) ∧
      Config.default.stepMillis < c.stepMillis ∧ c.stepNanos < Config.default.stepNanos ∧
      (Strategy.fresh c).durations 0 (ReplayVenue.idle 100 101 (0.01 : Float))
        (Discard.mk : Discard Float) = [-(pow2 63 : Int)] := by
  refine ⟨Strategy.start_eq_fresh ?_, ?_, ?_, ?_, ?_, ?_, ?_⟩
  all_goals decide +kernel

end MarketMaking
