import MarketMaking.Binary64.Scalar
import MarketMaking.Random.ChaCha
import MarketMaking.Venue

/-!
# A random market

A book that walks at random by one tick at most, with market orders whose depth beyond the touch
decays geometrically. Resting orders are executed when a trade reaches them.
-/

namespace MarketMaking

/-- A random market. -/
structure RandomWalk where
  random : Random.Stream
  stepsLeft : Nat
  bestBid : Int
  trades : List (Trade Float)
  orders : OrderTable Float
  position : Float
  fills : Nat

namespace RandomWalk

/-- A market that lasts for the given number of steps. -/
def start (steps : Nat) (seed : UInt64) : RandomWalk where
  random := Random.Stream.ofSeed seed
  stepsLeft := steps
  bestBid := 10000
  trades := []
  orders := []
  position := 0
  fills := 0

/-- The price of one tick. -/
def tickSize : Float := 0.01

/-- The probability that a market order reaches one tick further, in units of `2 ^ -64`. -/
def reachThreshold : Nat := Binary64.whole (0.55 * 18446744073709551616.0)

/-- The probability that a market order buys, in units of `2 ^ -64`. -/
def buyThreshold : Nat := pow2 63

/-- How many ticks beyond the touch a market order reaches, up to a limit. -/
def reach : (limit : Nat) → Random.Stream → Nat × Random.Stream
  | 0, s => (0, s)
  | limit + 1, s =>
      let (further, s) := s.chance reachThreshold
      if further then
        let (depth, s) := reach limit s
        (depth + 1, s)
      else (0, s)

/-- Execute an order. -/
def fill (v : RandomWalk) (id : OrderId) : RandomWalk :=
  match v.orders.get? id with
  | some order =>
      { v with
        orders := v.orders.adjust id RestingOrder.filled
        position := order.inventoryAfter v.position
        fills := v.fills + 1 }
  | none => v

/-- Print a trade and execute the active orders that it reaches. -/
def print (v : RandomWalk) (side : Side) : RandomWalk :=
  let (depth, random) := reach 20 v.random
  let tick := match side with
    | .buy => v.bestBid + 1 + depth
    | .sell => v.bestBid - depth
  let trade : Trade Float := ⟨side, Float.ofInt tick * tickSize, 1⟩
  let reached := v.orders.filter fun entry => entry.2.isActive && entry.2.reachedBy trade
  (reached.map Prod.fst).foldl fill { v with random, trades := v.trades ++ [trade] }

/-- A market order arrives on either side. -/
def arrive (v : RandomWalk) : RandomWalk :=
  let (buys, random) := v.random.chance buyThreshold
  { v with random }.print (if buys then .buy else .sell)

/-- One step: up to two market orders, then a move of the book. -/
def elapse (v : RandomWalk) : Bool × RandomWalk :=
  match v.stepsLeft with
  | 0 => (false, v)
  | stepsLeft + 1 =>
      let (arrivals, random) := v.random.below32 3
      let v := Nat.repeat arrive arrivals { v with stepsLeft, random }
      let (move, random) := v.random.below64 3
      (true, { v with random, bestBid := v.bestBid + (Int.ofNat move - 1) })

/-- Cancel an active order. -/
def cancel (v : RandomWalk) (id : OrderId) : Bool × RandomWalk :=
  if (v.orders.get? id).any RestingOrder.isActive then
    (true, { v with orders := v.orders.adjust id RestingOrder.cancelled })
  else (false, v)

instance : Venue RandomWalk Float where
  elapse v _ := v.elapse
  bestBid v := v.bestBid
  bestAsk v := v.bestBid + 1
  tickSize _ := tickSize
  lastTrades v := v.trades
  clearTrades v := { v with trades := [] }
  position v := v.position
  orders v := v.orders
  cancel := cancel
  submit v request := (.ok (), { v with orders := v.orders.put request.id request.accepted })
  clearInactive v := { v with orders := v.orders.activeOnly }

end RandomWalk

end MarketMaking
