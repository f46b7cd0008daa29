import MarketMaking.Proofs.View
import MarketMaking.Venue.RandomWalk
import MarketMaking.Venue.Replay

/-!
# Venues that print trades

A venue may print trades at any time: while its clock runs, and also while it cancels an order or
takes one in. Whatever it prints is pending until the pending trades are cleared. What has been
printed in all is not to be seen at a venue, so a tape may be put beside it on which every trade
goes when it comes to be pending. A strategy does the same with the tape as without it.
-/

namespace MarketMaking

variable {R V : Type} [Venue V R]

/-! ## Venues that print -/

namespace Venue

/-- Between `v` and `w` some trades were printed, and they are pending behind those that were. -/
def Prints (printed : V → List (Trade R)) (v w : V) : Prop :=
  ∃ trades, printed w = printed v ++ trades ∧ lastTrades w = lastTrades v ++ trades

/-- A venue of which `printed` tells all that it has printed so far. The pending trades accumulate
until they are cleared. -/
structure Ledger (printed : V → List (Trade R)) : Prop where
  clearTrades (v : V) : printed (Venue.clearTrades v) = printed v
  lastTrades (v : V) : Venue.lastTrades (Venue.clearTrades v) = []
  clearInactive (v : V) : Prints printed v (Venue.clearInactive v)
  cancel (v : V) (id : OrderId) : Prints printed v (Venue.cancel v id).2
  submit (v : V) (request : OrderRequest R) : Prints printed v (Venue.submit v request).2

variable {printed : V → List (Trade R)} {u v w : V}

/-- A venue that does nothing prints nothing. -/
@[simp] theorem Prints.refl (printed : V → List (Trade R)) (v : V) : Prints printed v v :=
  ⟨[], by simp, by simp⟩

/-- What is printed later is pending behind what was printed before. -/
theorem Prints.trans (first : Prints printed u v) (second : Prints printed v w) :
    Prints printed u w := by
  obtain ⟨xs, hprinted, hpending⟩ := first
  obtain ⟨ys, hprinted', hpending'⟩ := second
  refine ⟨xs ++ ys, ?_, ?_⟩
  · simp [hprinted', hprinted]
  · simp [hpending', hpending]

end Venue

open Venue (Prints Ledger)

/-! ## Venues under a tape -/

/-- Pending trades accumulate at a venue: only a clearing takes any of them back. -/
structure Venue.Accumulates (V : Type) {R : Type} [Venue V R] : Prop where
  elapse (v : V) (nanos : Int) : lastTrades v <+: lastTrades (elapse v nanos).2
  clearTrades (v : V) : lastTrades (clearTrades v) = []
  clearInactive (v : V) : lastTrades v <+: lastTrades (clearInactive v)
  cancel (v : V) (id : OrderId) : lastTrades v <+: lastTrades (cancel v id).2
  submit (v : V) (request : OrderRequest R) : lastTrades v <+: lastTrades (submit v request).2

/-- A venue with a tape of all that it has printed. -/
structure Taped (V R : Type) where
  venue : V
  tape : List (Trade R)

namespace Taped

/-- The venue moves on, and what is pending there for the first time goes on the tape. -/
def move (t : Taped V R) (w : V) : Taped V R :=
  ⟨w, t.tape ++ (Venue.lastTrades w).drop (Venue.lastTrades t.venue).length⟩

instance : Venue (Taped V R) R where
  elapse t nanos :=
    let (more, w) := Venue.elapse t.venue nanos
    (more, t.move w)
  bestBid t := Venue.bestBid t.venue
  bestAsk t := Venue.bestAsk t.venue
  tickSize t := Venue.tickSize t.venue
  lastTrades t := Venue.lastTrades t.venue
  clearTrades t := { t with venue := Venue.clearTrades t.venue }
  position t := Venue.position t.venue
  orders t := Venue.orders t.venue
  cancel t id :=
    let (accepted, w) := Venue.cancel t.venue id
    (accepted, t.move w)
  submit t request :=
    let (result, w) := Venue.submit t.venue request
    (result, t.move w)
  clearInactive t := t.move (Venue.clearInactive t.venue)

private theorem prints_move {t : Taped V R} {w : V}
    (longer : Venue.lastTrades t.venue <+: Venue.lastTrades w) : Prints tape t (t.move w) := by
  obtain ⟨trades, h⟩ := longer
  refine ⟨trades, ?_, h.symm⟩
  simp [move, ← h]

/-- The tape of a venue where pending trades accumulate tells all that was printed. -/
theorem ledger (accumulates : Venue.Accumulates V) :
    Ledger (tape : Taped V R → List (Trade R)) where
  clearTrades _ := rfl
  lastTrades t := accumulates.clearTrades t.venue
  clearInactive t := prints_move (accumulates.clearInactive t.venue)
  cancel t id := prints_move (accumulates.cancel t.venue id)
  submit t request := prints_move (accumulates.submit t.venue request)

/-- The clock of a venue where pending trades accumulate does no more than print. -/
theorem prints_elapse (accumulates : Venue.Accumulates V) (t : Taped V R) (nanos : Int) :
    Prints tape t (Venue.elapse t nanos).2 := prints_move (accumulates.elapse t.venue nanos)

end Taped

/-! ### A strategy does not see the tape -/

/-- An activity as it is at the venue without its tape. -/
def Activity.untaped {α : Type} (a : Activity R (Taped V R) α) : Activity R V α :=
  ⟨a.result, a.venue.venue, a.events⟩

/-- What a step came to at the venue without its tape. -/
def StepOutcome.untaped (o : StepOutcome R (Taped V R)) : StepOutcome R V :=
  ⟨o.result, o.strategy, o.venue.venue, o.events⟩

/-- A venue does under its tape what it does without. -/
theorem Taped.faithful : Venue.Faithful (venue : Taped V R → V) where
  tickSize _ := rfl
  position _ := rfl
  orders _ := rfl
  clearInactive _ := rfl
  cancel _ _ := rfl
  submit _ _ := rfl
  elapse _ _ := rfl
  bestBid _ := rfl
  bestAsk _ := rfl
  lastTrades _ := rfl
  clearTrades _ := rfl

/-- A pass is made as at the venue without its tape. -/
theorem OrderLimits.untaped_reconcile [Scalar R] (limits : OrderLimits R) (q : Quote R)
    (t : Taped V R) : (limits.reconcile q t).untaped = limits.reconcile q t.venue :=
  Taped.faithful.through_reconcile limits q t

/-- A step is made as at the venue without its tape. -/
theorem Strategy.untaped_step [Scalar R] (s : Strategy R) (t : Taped V R) :
    (s.step t).untaped = s.step t.venue :=
  Taped.faithful.through_step s t

/-! ### Venues where pending trades accumulate -/

/-- Pending trades accumulate where queued ticks are replayed. -/
theorem ReplayVenue.accumulates : Venue.Accumulates (ReplayVenue R) where
  elapse v nanos := by
    change v.trades <+: (v.elapse nanos).2.trades
    unfold ReplayVenue.elapse
    split <;> simp
  clearTrades _ := rfl
  clearInactive _ := List.prefix_rfl
  cancel v id := by
    change v.trades <+: (v.cancel id).2.trades
    unfold ReplayVenue.cancel
    split <;> simp
  submit v request := by
    change v.trades <+: (v.submit request).2.trades
    unfold ReplayVenue.submit
    split <;> simp

namespace RandomWalk

/-- An execution prints nothing. -/
theorem trades_fill (v : RandomWalk) (id : OrderId) : (v.fill id).trades = v.trades := by
  unfold fill
  split <;> rfl

private theorem trades_arrive (v : RandomWalk) : v.trades <+: v.arrive.trades := by
  have hfills (ids : List OrderId) (v : RandomWalk) : (ids.foldl fill v).trades = v.trades := by
    induction ids generalizing v with
    | nil => rfl
    | cons id ids ih => rw [List.foldl_cons, ih, trades_fill]
  unfold arrive print
  rcases v.random.chance buyThreshold with ⟨buys, random⟩
  dsimp only
  rcases reach 20 random with ⟨depth, random⟩
  dsimp only
  rw [hfills]
  simp

/-- Pending trades accumulate where the book follows a random walk. -/
theorem accumulates : Venue.Accumulates RandomWalk where
  elapse v _ := by
    have harrivals (n : Nat) (v : RandomWalk) : v.trades <+: (Nat.repeat arrive n v).trades := by
      induction n with
      | zero => simp [Nat.repeat]
      | succ n ih => exact ih.trans (trades_arrive _)
    change v.trades <+: v.elapse.2.trades
    unfold elapse
    split
    · simp
    · rcases v.random.below32 3 with ⟨arrivals, random⟩
      exact harrivals arrivals { v with stepsLeft := _, random }
  clearTrades _ := rfl
  clearInactive _ := List.prefix_rfl
  cancel v id := by
    change v.trades <+: (v.cancel id).2.trades
    unfold cancel
    split <;> simp
  submit _ _ := List.prefix_rfl

end RandomWalk

end MarketMaking
