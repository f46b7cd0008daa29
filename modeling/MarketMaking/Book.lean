import MarketMaking.Scalar

/-!
# Top of the book
-/

namespace MarketMaking

/-- Best bid and ask in ticks, the middle between them that quotes are centred on, and the price
of one tick. -/
structure Book (R : Type) where
  bestBid : Int
  bestAsk : Int
  mid : R
  tickSize : R
  deriving Repr

/-- The book with the given touch; its middle is half the sum of the two ticks. -/
def Book.ofTouch {R : Type} [Scalar R] (bestBid bestAsk : Int) (tickSize : R) : Book R where
  bestBid
  bestAsk
  mid := Scalar.ofInt (bestBid + bestAsk) / Scalar.two
  tickSize

end MarketMaking
