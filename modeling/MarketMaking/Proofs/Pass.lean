import MarketMaking.Proofs.Placing

/-!
# What a pass over the orders comes to

A pass cancels the stale orders, then places the bid and then the ask, and a bid that fails ends it.
The stages have names here. What a stage does to one side it does to the other, so that facts about
a pass are facts about cancelling and about placing one side.
-/

namespace MarketMaking.OrderLimits

variable {R V : Type} [Scalar R] [Venue V R]

/-- Cancelling the stale orders of a quote, once the inactive ones are dropped. -/
def cancels (q : Quote R) (v : V) : Activity R V Nat :=
  cancelAll (q.staleIds (Venue.tickSize (Venue.clearInactive v))
    (Venue.orders (Venue.clearInactive v))) (Venue.clearInactive v)

/-- Placing the bid once the stale orders are cancelled. -/
def bidPass (limits : OrderLimits R) (q : Quote R) (v : V) :
    Activity R V (Except (Error R) Bool) :=
  limits.placeSide q (Venue.tickSize (Venue.clearInactive v))
    (Venue.position (cancels q v).venue) .buy (cancels q v).venue

/-- Placing the ask once the bid is placed. -/
def askPass (limits : OrderLimits R) (q : Quote R) (v : V) :
    Activity R V (Except (Error R) Bool) :=
  limits.placeSide q (Venue.tickSize (Venue.clearInactive v))
    (Venue.position (cancels q v).venue) .sell (limits.bidPass q v).venue

/-- A bid that fails ends the pass. -/
theorem reconcile_of_bid_error {limits : OrderLimits R} {q : Quote R} {v : V} {e : Error R}
    (failed : (limits.bidPass q v).result = .error e) :
    limits.reconcile q v =
      ⟨.error e, (limits.bidPass q v).venue,
        (cancels q v).events ++ (limits.bidPass q v).events⟩ := by
  unfold bidPass cancels at *
  unfold reconcile
  dsimp only
  rw [failed]

/-- A bid that does not fail is followed by the ask. -/
theorem reconcile_of_bid_ok {limits : OrderLimits R} {q : Quote R} {v : V} {placed : Bool}
    (done : (limits.bidPass q v).result = .ok placed) :
    limits.reconcile q v =
      ⟨(limits.askPass q v).result.map fun askPlaced ↦
          ⟨(cancels q v).result, placed.toNat + askPlaced.toNat⟩,
        (limits.askPass q v).venue,
        (cancels q v).events ++ (limits.bidPass q v).events ++ (limits.askPass q v).events⟩ := by
  unfold askPass bidPass cancels at *
  unfold reconcile
  dsimp only
  rw [done]
  dsimp only
  split
  · next e failed =>
    rw [failed]
    rfl
  · next askPlaced done' =>
    rw [done']
    rfl

/-- A pass leaves the venue as the bid or as the ask left it. -/
theorem venue_reconcile (limits : OrderLimits R) (q : Quote R) (v : V) :
    (limits.reconcile q v).venue = (limits.bidPass q v).venue ∨
      (limits.reconcile q v).venue = (limits.askPass q v).venue := by
  cases hb : (limits.bidPass q v).result with
  | error e =>
    rw [reconcile_of_bid_error hb]
    exact .inl rfl
  | ok placed =>
    rw [reconcile_of_bid_ok hb]
    exact .inr rfl

/-- What dropping inactive orders and a cancellation keep of the venue holds once the stale orders
are cancelled. -/
theorem cancels_invariant {P : V → Prop} (clearInactive : ∀ v, P v → P (Venue.clearInactive v))
    (cancel : ∀ v id, P v → P (Venue.cancel v id).2) (q : Quote R) {v : V} (start : P v) :
    P (cancels q v).venue :=
  cancelAll_invariant cancel _ (clearInactive v start)

/-- What every operation of a pass keeps of the venue holds after the pass. -/
theorem reconcile_invariant {P : V → Prop} (clearInactive : ∀ v, P v → P (Venue.clearInactive v))
    (cancel : ∀ v id, P v → P (Venue.cancel v id).2)
    (submit : ∀ v request, P v → P (Venue.submit v request).2)
    (limits : OrderLimits R) (q : Quote R) {v : V} (start : P v) :
    P (limits.reconcile q v).venue := by
  have hplaceSide (tickSize position : R) (side : Side) {v : V} (start : P v) :
      P (limits.placeSide q tickSize position side v).venue := by
    cases hmissing : limits.missing? q tickSize position side v with
    | none => rwa [placeSide_of_missing?_eq_none hmissing]
    | some request =>
      rw [placeSide_of_missing?_eq_some hmissing]
      exact submit v request start
  have hcancels : P (cancels q v).venue := cancels_invariant clearInactive cancel q start
  have hbid : P (limits.bidPass q v).venue := hplaceSide _ _ _ hcancels
  rcases limits.venue_reconcile q v with h | h
  · rw [h]
    exact hbid
  · rw [h]
    exact hplaceSide _ _ _ hbid

end MarketMaking.OrderLimits
