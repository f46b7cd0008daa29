import MarketMaking.Proofs.Pass
import MarketMaking.Proofs.Step
import MarketMaking.Strategy.Run

/-!
# Venues with something beside them

A record may be kept beside a venue without disturbing it. What a pass does to the venue with its
record, seen without the record, is what it does to the venue alone. So it is with steps and with
whole runs, when the clock and the market do not see the record either.
-/

namespace MarketMaking

variable {R V W : Type} [Venue V R] [Venue W R]

/-- A map from one kind of venue to another that the operations of a pass respect. -/
structure Venue.Transparent (view : W → V) : Prop where
  tickSize (w : W) : Venue.tickSize (view w) = Venue.tickSize w
  position (w : W) : Venue.position (view w) = Venue.position w
  orders (w : W) : Venue.orders (view w) = Venue.orders w
  clearInactive (w : W) : Venue.clearInactive (view w) = view (Venue.clearInactive w)
  cancel (w : W) (id : OrderId) :
    Venue.cancel (view w) id = ((Venue.cancel w id).1, view (Venue.cancel w id).2)
  submit (w : W) (request : OrderRequest R) :
    Venue.submit (view w) request = ((Venue.submit w request).1, view (Venue.submit w request).2)

/-- An activity as it is seen through `view`. -/
def Activity.through {α : Type} (view : W → V) (a : Activity R W α) : Activity R V α :=
  ⟨a.result, view a.venue, a.events⟩

namespace Venue.Transparent

variable {view : W → V}

/-- Orders are cancelled as at the venue that is seen. -/
theorem through_cancelAll (transparent : Transparent view) (ids : List OrderId) (w : W) :
    (cancelAll ids w).through view = cancelAll ids (view w) := by
  induction ids generalizing w with
  | nil => rfl
  | cons id ids ih =>
    dsimp only [cancelAll]
    rw [transparent.cancel, ← ih]
    rfl

variable [Scalar R]

/-- A side is quoted as at the venue that is seen. -/
theorem through_placeSide (transparent : Transparent view) (limits : OrderLimits R) (q : Quote R)
    (tickSize position : R) (side : Side) (w : W) :
    (limits.placeSide q tickSize position side w).through view =
      limits.placeSide q tickSize position side (view w) := by
  have hmissing : limits.missing? q tickSize position side (view w) =
      limits.missing? q tickSize position side w := by
    unfold OrderLimits.missing?
    rw [transparent.orders]
  cases hlacking : limits.missing? q tickSize position side w with
  | none =>
    rw [OrderLimits.placeSide_of_missing?_eq_none hlacking,
      OrderLimits.placeSide_of_missing?_eq_none (hmissing.trans hlacking)]
    rfl
  | some request =>
    rw [OrderLimits.placeSide_of_missing?_eq_some hlacking,
      OrderLimits.placeSide_of_missing?_eq_some (hmissing.trans hlacking), transparent.submit]
    rfl

/-- A pass is made as at the venue that is seen. -/
theorem through_reconcile (transparent : Transparent view) (limits : OrderLimits R) (q : Quote R)
    (w : W) : (limits.reconcile q w).through view = limits.reconcile q (view w) := by
  have hcancels : OrderLimits.cancels q (view w) = (OrderLimits.cancels q w).through view := by
    unfold OrderLimits.cancels
    rw [transparent.through_cancelAll, transparent.clearInactive, transparent.tickSize,
      transparent.orders]
  have hposition : Venue.position (OrderLimits.cancels q (view w)).venue =
      Venue.position (OrderLimits.cancels q w).venue := by
    rw [hcancels]
    exact transparent.position _
  have hbid : limits.bidPass q (view w) = (limits.bidPass q w).through view := by
    unfold OrderLimits.bidPass
    rw [transparent.through_placeSide, hposition, hcancels, transparent.clearInactive,
      transparent.tickSize]
    rfl
  have hask : limits.askPass q (view w) = (limits.askPass q w).through view := by
    unfold OrderLimits.askPass
    rw [transparent.through_placeSide, hposition, hbid, transparent.clearInactive,
      transparent.tickSize]
    rfl
  cases hresult : (limits.bidPass q w).result with
  | error e =>
    have hresult' : (limits.bidPass q (view w)).result = .error e := by
      rw [hbid]
      exact hresult
    rw [OrderLimits.reconcile_of_bid_error hresult, OrderLimits.reconcile_of_bid_error hresult',
      hcancels, hbid]
    rfl
  | ok placed =>
    have hresult' : (limits.bidPass q (view w)).result = .ok placed := by
      rw [hbid]
      exact hresult
    rw [OrderLimits.reconcile_of_bid_ok hresult, OrderLimits.reconcile_of_bid_ok hresult', hcancels,
      hbid, hask]
    rfl

end Venue.Transparent

/-! ### Steps and runs -/

/-- A map from one kind of venue to another that all operations respect. -/
structure Venue.Faithful (view : W → V) : Prop extends Venue.Transparent view where
  elapse (w : W) (nanos : Int) :
    Venue.elapse (view w) nanos = ((Venue.elapse w nanos).1, view (Venue.elapse w nanos).2)
  bestBid (w : W) : Venue.bestBid (view w) = Venue.bestBid w
  bestAsk (w : W) : Venue.bestAsk (view w) = Venue.bestAsk w
  lastTrades (w : W) : Venue.lastTrades (view w) = Venue.lastTrades w
  clearTrades (w : W) : Venue.clearTrades (view w) = view (Venue.clearTrades w)

/-- What a step came to, as it is seen through `view`. -/
def StepOutcome.through (view : W → V) (o : StepOutcome R W) : StepOutcome R V :=
  ⟨o.result, o.strategy, view o.venue, o.events⟩

/-- What a run came to, as it is seen through `view`. -/
def RunOutcome.through {K : Type} (view : W → V) (o : RunOutcome R W K) : RunOutcome R V K :=
  ⟨o.result, o.strategy, view o.venue, o.recorder, o.events⟩

namespace Venue.Faithful

variable {view : W → V} [Scalar R]

/-- A step is made as at the venue that is seen. -/
theorem through_step (faithful : Faithful view) (s : Strategy R) (w : W) :
    (s.step w).through view = s.step (view w) := by
  have hbook : Venue.book (view w) = Venue.book w := by
    unfold Venue.book
    rw [faithful.bestBid, faithful.bestAsk, faithful.tickSize]
  have hobserved : s.observed (view w) = s.observed w := by
    unfold Strategy.observed
    rw [hbook, faithful.lastTrades]
  have hprepared : s.prepared (view w) = s.prepared w := by
    unfold Strategy.prepared
    rw [hobserved]
  have hposition : Venue.position (Venue.clearTrades (view w)) =
      Venue.position (Venue.clearTrades w) := by
    rw [faithful.clearTrades, faithful.position]
  have hquoted : s.quoted (view w) = s.quoted w := by
    unfold Strategy.quoted
    rw [hprepared, hbook, hposition]
  have hpreparation : s.preparation (view w) = s.preparation w := by
    unfold Strategy.preparation
    rw [hobserved, hquoted]
  have hpass : s.pass (view w) = (s.pass w).through view := by
    unfold Strategy.pass
    rw [hquoted, faithful.clearTrades, faithful.through_reconcile]
  cases hr : s.history.refusal? with
  | some e =>
    rw [Strategy.step_of_refusal hr, Strategy.step_of_refusal hr]
    rfl
  | none =>
    rw [Strategy.step_of_room hr, Strategy.step_of_room hr, hpass, hprepared, hquoted,
      hpreparation, hposition]
    cases hresult : (s.pass w).result with
    | error e => simp only [Activity.through, hresult]; rfl
    | ok r => simp only [Activity.through, hresult]; rfl

variable {K : Type} [Recorder K R]

omit [Venue V R] [Venue W R] in
private theorem through_conclude (view : W → V) (s : Strategy R) (w : W) (k : K)
    (past : Array (Event R)) :
    (s.conclude w k past).through view = s.conclude (view w) k past := by
  unfold Strategy.conclude
  dsimp only
  split <;> rfl

/-- A run is made as at the venue that is seen. -/
theorem through_runFrom (faithful : Faithful view) (horizon : Nat) (s : Strategy R) (w : W) (k : K)
    (past : Array (Event R)) :
    (s.runFrom horizon w k past).through view = s.runFrom horizon (view w) k past := by
  induction horizon generalizing s w k past with
  | zero => exact through_conclude view s w k past
  | succ horizon ih =>
    unfold Strategy.runFrom
    rw [faithful.elapse]
    rcases Venue.elapse w s.config.stepNanos with ⟨_ | _, w'⟩
    · exact through_conclude view s w' k past
    · dsimp only
      rw [← faithful.through_step]
      dsimp only [StepOutcome.through]
      cases (s.step w').result with
      | error e => rfl
      | ok row =>
        dsimp only
        rcases Recorder.record k row with ⟨_ | _, k'⟩
        · rfl
        · exact ih _ _ _ _

end Venue.Faithful

end MarketMaking
