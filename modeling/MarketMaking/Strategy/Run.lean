import MarketMaking.Recorder
import MarketMaking.Strategy

/-!
# Runs

Stepping a strategy until its venue has no more data.
-/

namespace MarketMaking

/-- What a run came to: its totals or its first failure, everything after it, and what happened. -/
structure RunOutcome (R V K : Type) where
  result : Except (Error R) (Summary R)
  strategy : Strategy R
  venue : V
  recorder : K
  events : Array (Event R)

namespace Strategy

variable {R V K : Type} [Scalar R] [Venue V R] [Recorder K R]

/-- The end of a run: the last calibration, then one flush of the recorder. -/
def conclude (s : Strategy R) (v : V) (k : K) (past : Array (Event R)) : RunOutcome R V K :=
  let (s, calibration) := s.finish
  let events := past ++ calibration
  match Recorder.flush k with
  | (.ok (), k) => ⟨.ok s.summary, s, v, k, events.push (.runFinished s.summary)⟩
  | (.error e, k) => ⟨.error e, s, v, k, events⟩

/-- Step at every tick, for at most `horizon` ticks, and hand the records to the recorder. The
first failure of a step or of the recorder ends the run without its conclusion. The events of the
run are added to those of the past. -/
def runFrom : (horizon : Nat) → Strategy R → V → K → Array (Event R) → RunOutcome R V K
  | 0, s, v, k, past => s.conclude v k past
  | horizon + 1, s, v, k, past =>
      match Venue.elapse v s.config.stepNanos with
      | (false, v) => s.conclude v k past
      | (true, v) =>
          let stepped := s.step v
          let events := past ++ stepped.events
          match stepped.result with
          | .error e => ⟨.error e, stepped.strategy, stepped.venue, k, events⟩
          | .ok row =>
              match Recorder.record k row with
              | (.error e, k) => ⟨.error e, stepped.strategy, stepped.venue, k, events⟩
              | (.ok (), k) => runFrom horizon stepped.strategy stepped.venue k events

/-- Run until the venue has no more data. A venue has at most `ticks` ticks left; the clock is asked
once more than that, to learn that none is left. -/
def run (s : Strategy R) (ticks : Nat) (v : V) (k : K) : RunOutcome R V K :=
  s.runFrom (ticks + 1) v k #[]

end Strategy

end MarketMaking
