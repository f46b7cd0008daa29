import MarketMaking.Proofs.Ledger
import MarketMaking.Proofs.Recording
import MarketMaking.Proofs.Schedule

/-!
# Every printed trade is recorded once

A step that is recorded takes in all trades that are pending and clears them before it comes to its
orders, and a step that is refused leaves them where they are. So the trades that were recorded,
followed by those that are pending, are at all times those that were printed.
-/

namespace MarketMaking

open Venue (Prints Ledger)

variable {R V : Type} [Venue V R] [Scalar R] {printed : V → List (Trade R)}

/-! ## One step -/

/-- The trades of some markets in their order. -/
def Market.tradesOf (markets : List (Market R)) : List (Trade R) := markets.flatMap Market.trades

/-- A pass over the orders may print trades at each of its stages. -/
theorem Venue.Ledger.prints_reconcile (ledger : Ledger printed) (limits : OrderLimits R)
    (q : Quote R) (v : V) : Prints printed v (limits.reconcile q v).venue := by
  apply OrderLimits.reconcile_invariant (P := Prints printed v)
  · exact fun w before ↦ before.trans (ledger.clearInactive w)
  · exact fun w id before ↦ before.trans (ledger.cancel w id)
  · exact fun w request before ↦ before.trans (ledger.submit w request)
  · simp

namespace Strategy

/-- A step tells the history of the market that it found, whatever becomes of the step. -/
theorem history_step_eq_told (s : Strategy R) (v : V) :
    (s.step v).strategy.history = s.history.told (Venue.market v) := by
  rw [ArrivalHistory.told, ArrivalHistory.record]
  cases hr : s.history.refusal? with
  | some e => rw [step_of_refusal hr]
  | none => exact history_step hr v

/-- What a step records, followed by what is pending after it, is what was pending before it with
what was printed during the step. -/
theorem recorded_append_pending (ledger : Ledger printed) (s : Strategy R) (v : V) :
    ∃ trades, printed (s.step v).venue = printed v ++ trades ∧
      Market.tradesOf (s.history.accepted [Venue.market v]) ++ Venue.lastTrades (s.step v).venue =
        Venue.lastTrades v ++ trades := by
  simp only [ArrivalHistory.accepted, ArrivalHistory.record]
  cases hr : s.history.refusal? with
  | some e =>
    rw [step_of_refusal hr]
    exact ⟨[], by simp, by simp [Market.tradesOf]⟩
  | none =>
    have hvenue : (s.step v).venue = (s.pass v).venue := by
      rw [step_of_room hr]
      cases (s.pass v).result <;> rfl
    -- the pending trades are cleared before the pass, so that it leaves only what it printed
    obtain ⟨trades, hprinted, hpending⟩ :=
      ledger.prints_reconcile s.config.orderLimits (s.quoted v).1 (Venue.clearTrades v)
    rw [ledger.clearTrades] at hprinted
    rw [ledger.lastTrades, List.nil_append] at hpending
    refine ⟨trades, ?_, ?_⟩
    · rw [hvenue]
      exact hprinted
    · rw [hvenue, pass, hpending]
      simp [Market.tradesOf, Venue.market]

end Strategy

/-! ## All steps -/

/-- The history that a strategy on `c` starts with. -/
def Config.history (c : Config R) : ArrivalHistory R :=
  .empty c.historyCapacity c.historyOverflow c.calibrationWindow

@[simp] theorem marketsOf_finish (past : List (Deed R V)) (s : Strategy R) :
    marketsOf (past ++ [.finish s]) = marketsOf past := by
  simp [marketsOf, Deed.market?]

/-- The history was told of the markets of all steps, and of nothing else. -/
theorem Chronicle.history_eq {c : Config R} {past : List (Deed R V)} {s : Strategy R} {v : V}
    (chronicle : Chronicle c past s v) : s.history = c.history.after (marketsOf past) := by
  induction chronicle with
  | start v started =>
    obtain ⟨-, rfl⟩ := Strategy.start_eq_ok_iff.mp started
    rfl
  | market _ w ih => exact ih
  | step _ ih =>
    rw [marketsOf_step, ArrivalHistory.after_concat, ← ih]
    apply Strategy.history_step_eq_told
  | finish _ ih =>
    rw [marketsOf_finish, Strategy.finish_frame]
    exact ih

/-- The chronicles of a strategy on `c` at a venue that prints: what is pending at the start is all
that was printed, and between two deeds the venue does no more than print. -/
inductive Printing (printed : V → List (Trade R)) (c : Config R) :
    List (Deed R V) → Strategy R → V → Prop where
  | start {s : Strategy R} {v : V} : Strategy.start c = .ok s → printed v = Venue.lastTrades v →
      Printing printed c [] s v
  | market {past : List (Deed R V)} {s : Strategy R} {v w : V} :
      Printing printed c past s v → Prints printed v w → Printing printed c past s w
  | step {past : List (Deed R V)} {s : Strategy R} {v : V} : Printing printed c past s v →
      Printing printed c (past ++ [.step s v]) (s.step v).strategy (s.step v).venue
  | finish {past : List (Deed R V)} {s : Strategy R} {v : V} : Printing printed c past s v →
      Printing printed c (past ++ [.finish s]) s.finish.1 v

namespace Printing

variable {c : Config R} {past : List (Deed R V)} {s : Strategy R} {v : V}

/-- A market that prints is a market that may do anything. -/
theorem chronicle (printing : Printing printed c past s v) : Chronicle c past s v := by
  induction printing with
  | start started _ => exact .start _ started
  | market _ _ ih => exact ih.market _
  | step _ ih => exact ih.step
  | finish _ ih => exact ih.finish

/-- What was recorded, followed by what is pending, is what was printed. -/
theorem recorded_append_pending (ledger : Ledger printed) (printing : Printing printed c past s v) :
    Market.tradesOf (c.history.accepted (marketsOf past)) ++ Venue.lastTrades v = printed v := by
  induction printing with
  | start _ opening => exact opening.symm
  | market _ move ih =>
    obtain ⟨trades, hprinted, hpending⟩ := move
    rw [hprinted, hpending, ← ih, List.append_assoc]
  | @step past s v printing ih =>
    obtain ⟨trades, hprinted, hpending⟩ := s.recorded_append_pending ledger v
    rw [marketsOf_step, ArrivalHistory.accepted_concat, ← printing.chronicle.history_eq, hprinted,
      ← ih, List.append_assoc, ← hpending]
    simp [Market.tradesOf]
  | finish _ ih =>
    rw [marketsOf_finish]
    exact ih

/-- Whatever steps were made, completed or failed, and whatever was printed before and during them,
the trades that the history recorded, followed by those that are pending, are all that were printed,
in order. Each recorded market is measured against the one recorded before it, even when the step of
that one failed later: the samples held are the last ones, and the next market will be measured
against the last middle that was recorded. -/
theorem recorded_once (ledger : Ledger printed) (printing : Printing printed c past s v) :
    let markets := c.history.accepted (marketsOf past)
    let samples := Market.samples markets
    s.history = c.history.after (marketsOf past) ∧
      Market.tradesOf markets ++ Venue.lastTrades v = printed v ∧
      s.history.samples.toList = samples.drop (markets.length - s.history.size) ∧
      s.history.mid = markets.getLast?.map (·.book.mid) ∧
      (∀ t before m, markets[t]? = some before → markets[t + 1]? = some m →
        samples[t + 1]? = some ⟨Trade.greatestDepth (m.distances before),
          some (m.book.mid - before.book.mid)⟩) := by
  intro markets samples
  have hhistory := printing.chronicle.history_eq
  have follows : ArrivalHistory.Follows c.historyCapacity c.historyOverflow c.calibrationWindow
      s.history markets := by
    rw [hhistory]
    exact (ArrivalHistory.Follows.empty _ _ _).after (marketsOf past)
  refine ⟨hhistory, printing.recorded_append_pending ledger, follows.toList_eq,
    follows.records.mid, ?_⟩
  intro t before m hbefore hm
  exact Market.getElem?_samplesBehind hbefore hm

/-- Four ticks at a venue with a tape, on a history of three samples that drops none: the trades of
the last tick are pending after the step that is refused. -/
theorem recorded_once_refused :
    let c := { Config.brief with historyOverflow := .fail, calibrationCadence := 5 }
    ∃ past s, ∃ t : Taped (ReplayVenue Float) Float, Printing Taped.tape c past s t ∧
      past.map Deed.isCompleted = [true, true, true, false] ∧
      t.tape.map Trade.side = [.buy, .sell, .sell, .buy] ∧
      (Venue.lastTrades t).map Trade.side = [.buy] ∧
      Market.tradesOf (c.history.accepted (marketsOf past)) ++ Venue.lastTrades t = t.tape := by
  intro c
  let ticks : List (ReplayTick Float) :=
    [⟨100, 101, [⟨.buy, 51, 1⟩]⟩, ⟨100, 102, [⟨.sell, 49, 1⟩, ⟨.sell, 48, 1⟩]⟩, ⟨100, 101, []⟩,
      ⟨100, 101, [⟨.buy, 52, 1⟩]⟩]
  let start : Taped (ReplayVenue Float) Float :=
    ⟨{ ReplayVenue.idle 100 101 0.5 with ticks }, []⟩
  have ledger := Taped.ledger (ReplayVenue.accumulates (R := Float))
  have hclock := Taped.prints_elapse (ReplayVenue.accumulates (R := Float))
  have hstart : Printing Taped.tape c [] (Strategy.fresh c) start :=
    .start (Strategy.start_eq_fresh (by decide +kernel)) rfl
  have printing := ((((hstart.market (hclock _ 100)).step.market (hclock _ 100)).step.market
    (hclock _ 100)).step.market (hclock _ 100)).step
  refine ⟨_, _, _, printing, ?_, ?_, ?_, (printing.recorded_once ledger).2.1⟩
  · decide +kernel
  · decide +kernel
  · decide +kernel

end Printing

end MarketMaking
