import MarketMaking.Event
import MarketMaking.Venue

/-!
# Reconciling orders with a quote

At most one post-only order a side rests at the latest quote. A pass first cancels every order that
is no longer at the quote of its side, then places the quotes that are missing while the inventory
stays inside its limit. A price level that already holds an order is never quoted again.
-/

namespace MarketMaking

/-- The inventory limit of both sides and the quantity of every order. -/
structure OrderLimits (R : Type) where
  maxPosition : R
  orderQty : R
  deriving Repr

/-- What an activity at a venue came to: its result, the venue after it, and what happened. -/
structure Activity (R V α : Type) where
  result : α
  venue : V
  events : List (Event R)

variable {R V : Type} [Scalar R]

/-- The price level quoted on a side, if that side is quoted. -/
def Quote.level? (q : Quote R) (tickSize : R) (side : Side) : Option OrderId :=
  (q.on side).map (OrderId.ofPrice · tickSize)

/-- Is this an order to cancel: one that can be cancelled and rests at another level than the quote
of its side? -/
def Quote.isStale (q : Quote R) (tickSize : R) (order : RestingOrder R) : Bool :=
  order.cancellable && q.level? tickSize order.side != some (OrderId.ofPrice order.price tickSize)

/-- The identifiers of the orders to cancel. -/
def Quote.staleIds (q : Quote R) (tickSize : R) (orders : OrderTable R) : List OrderId :=
  ((orders.map Prod.snd).filter (q.isStale tickSize)).map RestingOrder.id

variable [Venue V R]

/-- Request cancellations one after the other, counting the accepted ones. -/
def cancelAll : List OrderId → V → Activity R V Nat
  | [], v => ⟨0, v, []⟩
  | id :: ids, v =>
      let (accepted, v) := Venue.cancel v id
      let rest := cancelAll ids v
      ⟨if accepted then rest.result + 1 else rest.result, rest.venue,
        .cancelRequested id accepted :: rest.events⟩

omit [Scalar R] in
/-- What one cancellation keeps of the venue holds after any number of them. -/
theorem cancelAll_invariant {P : V → Prop} (cancel : ∀ v id, P v → P (Venue.cancel v id).2)
    (ids : List OrderId) {v : V} (start : P v) : P (cancelAll ids v).venue := by
  induction ids generalizing v with
  | nil => exact start
  | cons id ids ih => exact ih (cancel v id start)

omit [Scalar R] in
/-- Cancelling requests cancellations of the list, and nothing else happens. -/
theorem exists_of_mem_cancelAll {ids : List OrderId} {v : V} {event : Event R}
    (mem : event ∈ (cancelAll ids v).events) :
    ∃ id ∈ ids, ∃ accepted, event = .cancelRequested id accepted := by
  induction ids generalizing v with
  | nil => cases mem
  | cons head ids ih =>
    rcases List.mem_cons.mp mem with rfl | hrest
    · exact ⟨head, List.mem_cons_self, _, rfl⟩
    · obtain ⟨id, hid, hevent⟩ := ih hrest
      exact ⟨id, List.mem_cons_of_mem _ hid, hevent⟩

omit [Scalar R] in
/-- What is picked from other events than cancellations is not found in cancelling. -/
theorem filterMap_cancelAll {α : Type} {f : Event R → Option α}
    (others : ∀ id accepted, f (.cancelRequested id accepted) = none) (ids : List OrderId) (v : V) :
    (cancelAll ids v).events.filterMap f = [] := by
  rw [List.filterMap_eq_nil_iff]
  intro event mem
  obtain ⟨id, -, accepted, rfl⟩ := exists_of_mem_cancelAll mem
  exact others id accepted

omit [Scalar R] in
/-- The result counts the cancellations that were accepted. -/
theorem result_cancelAll (ids : List OrderId) (v : V) :
    (cancelAll ids v).result =
      (cancelAll ids v).events.countP fun event => match event with
        | .cancelRequested _ accepted => accepted
        | _ => false := by
  induction ids generalizing v with
  | nil => rfl
  | cons id ids ih =>
    simp only [cancelAll, List.countP_cons, ih]
    split <;> simp_all

namespace OrderLimits

/-- May inventory be added on this side? -/
def admits (limits : OrderLimits R) (position : R) : Side → Bool
  | .buy => Scalar.lt position limits.maxPosition
  | .sell => Scalar.lt (-limits.maxPosition) position

/-- The post-only request for a quote. -/
def request (limits : OrderLimits R) (side : Side) (price tickSize : R) : OrderRequest R where
  id := OrderId.ofPrice price tickSize
  side
  price
  qty := limits.orderQty
  timeInForce := .goodTillCrossing

/-- Place an order, unless its level already holds one, and say whether it was placed. A rejection
by the venue is no failure. -/
def place (request : OrderRequest R) (v : V) : Activity R V (Except (Error R) Bool) :=
  if (Venue.orders v).has request.id then ⟨.ok false, v, []⟩
  else
    match Venue.submit v request with
    | (.ok (), v) => ⟨.ok true, v, [.orderRequested request none]⟩
    | (.error e, v) =>
        let result := match e with
          | .orderRejected .. => .ok false
          | e => .error e
        ⟨result, v, [.orderRequested request (some e)]⟩

/-- Place the quote of one side, if that side is quoted and `position` admits it. -/
def placeSide (limits : OrderLimits R) (q : Quote R) (tickSize position : R) (side : Side) (v : V) :
    Activity R V (Except (Error R) Bool) :=
  match q.on side with
  | some price =>
      if limits.admits position side then place (limits.request side price tickSize) v
      else ⟨.ok false, v, []⟩
  | none => ⟨.ok false, v, []⟩

/-- One pass: drop inactive orders, cancel stale ones, place the bid and then the ask. The first
failure other than a rejection ends the pass. -/
def reconcile (limits : OrderLimits R) (q : Quote R) (v : V) :
    Activity R V (Except (Error R) Reconciliation) :=
  let v := Venue.clearInactive v
  let tickSize := Venue.tickSize v
  let cancels := cancelAll (q.staleIds tickSize (Venue.orders v)) v
  let position := Venue.position cancels.venue
  let bid := limits.placeSide q tickSize position .buy cancels.venue
  match bid.result with
  | .error e => ⟨.error e, bid.venue, cancels.events ++ bid.events⟩
  | .ok bidPlaced =>
      let ask := limits.placeSide q tickSize position .sell bid.venue
      let events := cancels.events ++ bid.events ++ ask.events
      match ask.result with
      | .error e => ⟨.error e, ask.venue, events⟩
      | .ok askPlaced =>
          ⟨.ok ⟨cancels.result, bidPlaced.toNat + askPlaced.toNat⟩, ask.venue, events⟩

end OrderLimits

end MarketMaking
