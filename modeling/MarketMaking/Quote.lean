import MarketMaking.Book
import MarketMaking.Calibration
import MarketMaking.Error

/-!
# Quotes

The Guéant–Lehalle–Fernandez-Tapia closed form: a half spread and a skew per unit of inventory,
computed from the fitted decay and the volatility, give the depths of bid and ask around the middle
of the book. Prices are rounded to whole ticks and kept on their own side of the touch.
-/

namespace MarketMaking

/-- The model parameters that stay fixed for a run: risk aversion `xi`, inventory penalty `gamma`
and depth scale `delta`. -/
structure RiskParams (R : Type) where
  xi : R
  gamma : R
  delta : R
  deriving Repr

/-- The coefficients of the closed form: `c1` is the half spread without volatility, `c2` the skew
per unit of volatility. -/
structure Coefficients (R : Type) where
  c1 : R
  c2 : R
  deriving Repr

/-- Half spread and skew in ticks, with the prices of both sides. A price that is not finite stands
for a side that is not quoted. -/
structure Quote (R : Type) where
  halfSpread : R
  skew : R
  bidPrice : R
  askPrice : R
  deriving Repr

variable {R : Type} [Scalar R]

namespace Coefficients

open Scalar in
/-- The closed form
`c1 = 1/(xi delta) ln(1 + xi delta/k)` and
`c2 = sqrt(gamma/(2 A delta k) (1 + xi delta/k)^(k/(xi delta) + 1))`,
for a positive finite decay. -/
def ofDecay (params : RiskParams R) (a k : R) : Except (Error R) (Coefficients R) :=
  if isFinite a && isFinite k && isPositive a && isPositive k then
    let scale := params.xi * params.delta
    let base := one + scale * (one / k)
    .ok {
      c1 := (one / scale) * ln base
      c2 := sqrt ((params.gamma / (two * a * params.delta * k)) * pow base (k / scale + one)) }
  else .error (.invalidCalibration a k)

/-- The distance of an uninventoried quote from the middle, in ticks. -/
def halfSpread (c : Coefficients R) (delta volatility : R) : R :=
  c.c1 + delta / Scalar.two * c.c2 * volatility

/-- The shift of both quotes per unit of inventory, in ticks. -/
def skew (c : Coefficients R) (volatility : R) : R := c.c2 * volatility

end Coefficients

namespace Quote

/-- No quote on either side. -/
def suppressed : Quote R := ⟨Scalar.nan, Scalar.nan, Scalar.nan, Scalar.nan⟩

/-- The bid, when that side is quoted. -/
def bid (q : Quote R) : Option R := Scalar.finite? q.bidPrice

/-- The ask, when that side is quoted. -/
def ask (q : Quote R) : Option R := Scalar.finite? q.askPrice

/-- The price quoted on a side, if any. -/
def on (q : Quote R) : Side → Option R
  | .buy => q.bid
  | .sell => q.ask

/-- The price of a side at `tick`. A depth that is not finite leaves the side without a price: the
comparison with the touch would otherwise have turned an unknown tick into the touch itself. -/
def priceAt (tick depth tickSize : R) : R :=
  if Scalar.isFinite depth then tick * tickSize else Scalar.nan

/-- The tick of the bid at `depth` below the middle: a whole tick at or below the best bid. -/
def bidTick (book : Book R) (depth : R) : R :=
  Scalar.min (Scalar.roundEven (book.mid - depth)) (Scalar.ofInt book.bestBid)

/-- The tick of the ask at `depth` above the middle: a whole tick at or above the best ask. -/
def askTick (book : Book R) (depth : R) : R :=
  Scalar.max (Scalar.roundEven (book.mid + depth)) (Scalar.ofInt book.bestAsk)

/-- The quote around the middle of `book` for an inventory of `position`. -/
def around (params : RiskParams R) (calibration : Calibration R) (book : Book R) (position : R) :
    Except (Error R) (Quote R) := do
  let c ← Coefficients.ofDecay params calibration.a calibration.k
  let halfSpread := c.halfSpread params.delta calibration.volatility
  let skew := c.skew calibration.volatility
  let bidDepth := halfSpread + skew * position
  let askDepth := halfSpread - skew * position
  return {
    halfSpread
    skew
    bidPrice := priceAt (bidTick book bidDepth) bidDepth book.tickSize
    askPrice := priceAt (askTick book askDepth) askDepth book.tickSize }

end Quote

end MarketMaking
