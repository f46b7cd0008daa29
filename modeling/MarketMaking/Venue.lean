import MarketMaking.Book
import MarketMaking.Error
import MarketMaking.OrderTable

/-!
# Venues

A venue owns the clock, the book, the trades and all orders. A strategy observes it and requests
cancellations and new orders. No law is assumed of the operations here; statements that need one
say so.
-/

namespace MarketMaking

/-- The operations of a venue with states in `V`. -/
class Venue (V : Type) (R : outParam Type) where
  /-- Let time pass, in nanoseconds; false when there is no more data. -/
  elapse : V → Int → Bool × V
  /-- The best bid in ticks. -/
  bestBid : V → Int
  /-- The best ask in ticks. -/
  bestAsk : V → Int
  /-- The price of one tick. -/
  tickSize : V → R
  /-- The trades printed since they were last cleared, oldest first. -/
  lastTrades : V → List (Trade R)
  /-- Forget the trades printed so far. -/
  clearTrades : V → V
  /-- The signed inventory. -/
  position : V → R
  /-- All orders, in the order in which the venue lists them. -/
  orders : V → OrderTable R
  /-- Request a cancellation; false when nothing was cancelled. -/
  cancel : V → OrderId → Bool × V
  /-- Request a new order. -/
  submit : V → OrderRequest R → Except (Error R) Unit × V
  /-- Drop orders that can no longer be filled. -/
  clearInactive : V → V

/-- The book at a venue. -/
def Venue.book {V R : Type} [Scalar R] [Venue V R] (v : V) : Book R :=
  Book.ofTouch (Venue.bestBid v) (Venue.bestAsk v) (Venue.tickSize v)

end MarketMaking
