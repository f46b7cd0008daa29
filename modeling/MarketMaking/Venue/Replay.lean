import MarketMaking.Venue

/-!
# Replaying venues

A venue that replays queued ticks. Its orders are executed only on demand, and all new orders can
be refused.
-/

namespace MarketMaking

/-- The market of one step. -/
structure ReplayTick (R : Type) where
  bestBid : Int
  bestAsk : Int
  trades : List (Trade R)

/-- A venue that replays ticks. -/
structure ReplayVenue (R : Type) where
  bestBid : Int
  bestAsk : Int
  tickSize : R
  position : R
  trades : List (Trade R)
  ticks : List (ReplayTick R)
  orders : OrderTable R
  /-- The accepted cancellations. -/
  cancels : Array OrderId
  /-- The accepted order requests. -/
  requests : Array (OrderRequest R)
  /-- Are all new orders refused? -/
  refusing : Bool
  /-- The time that has passed, in nanoseconds. -/
  elapsed : Int

namespace ReplayVenue

variable {R : Type} [Scalar R]

/-- A venue without orders, trades or ticks. -/
def idle (bestBid bestAsk : Int) (tickSize : R) : ReplayVenue R where
  bestBid
  bestAsk
  tickSize
  position := Scalar.zero
  trades := []
  ticks := []
  orders := []
  cancels := #[]
  requests := #[]
  refusing := false
  elapsed := 0

/-- Queue a tick. -/
def push (v : ReplayVenue R) (tick : ReplayTick R) : ReplayVenue R :=
  { v with ticks := v.ticks ++ [tick] }

/-- Enter an active order of quantity one. -/
def insert (v : ReplayVenue R) (id : OrderId) (side : Side) (price : R) (cancellable : Bool) :
    ReplayVenue R :=
  { v with orders := v.orders.put id ⟨id, side, price, Scalar.one, .active, cancellable⟩ }

/-- Execute an active order; nothing else is executed. -/
def fill (v : ReplayVenue R) (id : OrderId) : ReplayVenue R :=
  match v.orders.get? id with
  | some order =>
      if order.isActive then
        { v with
          orders := v.orders.adjust id RestingOrder.filled
          position := order.inventoryAfter v.position }
      else v
  | none => v

/-- Cancel an active cancellable order. -/
def cancel (v : ReplayVenue R) (id : OrderId) : Bool × ReplayVenue R :=
  if (v.orders.get? id).any fun order => order.isActive && order.cancellable then
    (true, { v with
      orders := v.orders.adjust id RestingOrder.cancelled
      cancels := v.cancels.push id })
  else (false, v)

/-- Enter an order unless all are refused. -/
def submit (v : ReplayVenue R) (request : OrderRequest R) :
    Except (Error R) Unit × ReplayVenue R :=
  if v.refusing then (.error (.orderRejected request.id "mock rejection"), v)
  else
    (.ok (), { v with
      requests := v.requests.push request
      orders := v.orders.put request.id request.accepted })

/-- Take the next tick, if there is one; time passes only then. -/
def elapse (v : ReplayVenue R) (duration : Int) : Bool × ReplayVenue R :=
  match v.ticks with
  | [] => (false, v)
  | tick :: ticks =>
      (true, { v with
        ticks
        elapsed := v.elapsed + duration
        bestBid := tick.bestBid
        bestAsk := tick.bestAsk
        trades := v.trades ++ tick.trades })

/-- Forget the accepted cancellations and requests. -/
def clearLogs (v : ReplayVenue R) : ReplayVenue R := { v with cancels := #[], requests := #[] }

/-- Drop orders that can no longer be filled. -/
def clearInactive (v : ReplayVenue R) : ReplayVenue R :=
  { v with orders := v.orders.activeOnly }

/-- Forget the trades printed so far. -/
def clearTrades (v : ReplayVenue R) : ReplayVenue R := { v with trades := [] }

instance : Venue (ReplayVenue R) R where
  elapse := elapse
  bestBid v := v.bestBid
  bestAsk v := v.bestAsk
  tickSize v := v.tickSize
  lastTrades v := v.trades
  clearTrades := clearTrades
  position v := v.position
  orders v := v.orders
  cancel := cancel
  submit := submit
  clearInactive := clearInactive

end ReplayVenue

end MarketMaking
