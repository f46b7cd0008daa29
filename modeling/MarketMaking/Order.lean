import MarketMaking.Scalar

/-!
# Orders and trades

Orders are identified by the price level they rest at: the price in ticks, rounded to the nearest
whole tick. At most one order can rest under one identifier.
-/

namespace MarketMaking

/-- Identifier of a resting order. -/
structure OrderId where
  tick : Int
  deriving DecidableEq, Repr

/-- The price level of `price`: the nearest whole number of ticks, halves going away from zero. -/
def OrderId.ofPrice {R : Type} [Scalar R] (price tickSize : R) : OrderId :=
  ⟨Scalar.toInt (Scalar.roundAway (price / tickSize))⟩

/-- The two directions of an order or a trade. -/
inductive Side where
  | buy
  | sell
  deriving DecidableEq, Repr

namespace Side

/-- The other direction. -/
def opposite : Side → Side
  | buy => sell
  | sell => buy

/-- The name of a side in logs and answers. -/
def name : Side → String
  | buy => "buy"
  | sell => "sell"

end Side

/-- How long an order stands. -/
inductive TimeInForce where
  | goodTillCancel
  /-- Post-only: refused instead of executed against the book. -/
  | goodTillCrossing
  | immediateOrCancel
  deriving DecidableEq, Repr

/-- What has become of an order. -/
inductive OrderStatus where
  | active
  | cancelled
  | filled
  deriving DecidableEq, Repr

/-- An order as it is seen at the venue. -/
structure RestingOrder (R : Type) where
  id : OrderId
  side : Side
  price : R
  qty : R
  status : OrderStatus
  cancellable : Bool
  deriving Repr

/-- Can this order still be filled? -/
def RestingOrder.isActive {R : Type} (order : RestingOrder R) : Bool := order.status = .active

/-- A market trade. -/
structure Trade (R : Type) where
  side : Side
  price : R
  qty : R
  deriving Repr

/-- A request to place an order. -/
structure OrderRequest (R : Type) where
  id : OrderId
  side : Side
  price : R
  qty : R
  timeInForce : TimeInForce
  deriving Repr

/-- The order that an accepted request leaves at the venue. -/
def OrderRequest.accepted {R : Type} (request : OrderRequest R) : RestingOrder R where
  id := request.id
  side := request.side
  price := request.price
  qty := request.qty
  status := .active
  cancellable := true

end MarketMaking
