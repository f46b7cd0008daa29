import MarketMaking.Json
import MarketMaking.Quote
import MarketMaking.Summary

/-!
# JSON forms of the domain

The fields under which states, quotes, orders and totals are written.
-/

namespace MarketMaking

/-- A number of things. -/
def Json.count (n : Nat) : Json := .int (Int.ofNat n)

/-- The fitted decay, the volatility and the step of the fit. -/
def Calibration.toJson (c : Calibration Float) : Json :=
  .object [
    ("a", .float c.a),
    ("k", .float c.k),
    ("volatility", .float c.volatility),
    ("calibrated_at", c.fittedAt.elim .null .count)]

/-- Both coefficients. -/
def Coefficients.toJson (c : Coefficients Float) : Json :=
  .object [("c1", .float c.c1), ("c2", .float c.c2)]

/-- Spread, skew and both prices. -/
def Quote.toJson (q : Quote Float) : Json :=
  .object [
    ("half_spread", .float q.halfSpread),
    ("skew", .float q.skew),
    ("bid_price", .float q.bidPrice),
    ("ask_price", .float q.askPrice)]

/-- The two counts of a pass. -/
def Reconciliation.toJson (r : Reconciliation) : Json :=
  .object [("cancelled", .count r.cancelled), ("submitted", .count r.submitted)]

/-- The record of a step. -/
def StepRecord.toJson (r : StepRecord Float) : Json :=
  .object [
    ("step", .count r.step),
    ("half_spread", .float r.halfSpread),
    ("skew", .float r.skew),
    ("volatility", .float r.volatility),
    ("a", .float r.a),
    ("k", .float r.k),
    ("bid_price", .float r.bidPrice),
    ("ask_price", .float r.askPrice),
    ("position", .float r.position)]

/-- Totals with the state at the end. -/
def Summary.toJson (s : Summary Float) : Json :=
  .object [
    ("steps", .count s.steps),
    ("calibrations", .count s.calibrations),
    ("failed_calibrations", .count s.failedCalibrations),
    ("orders_submitted", .count s.ordersSubmitted),
    ("orders_cancelled", .count s.ordersCancelled),
    ("final_state", s.finalState.toJson)]

/-- The capitalised name of a side. -/
def Side.toJson : Side → Json
  | .buy => .string "Buy"
  | .sell => .string "Sell"

/-- The capitalised name of a status. -/
def OrderStatus.toJson : OrderStatus → Json
  | .active => .string "Active"
  | .cancelled => .string "Cancelled"
  | .filled => .string "Filled"

/-- An order with its identifier as a bare number. -/
def RestingOrder.toJson (order : RestingOrder Float) : Json :=
  .object [
    ("order_id", .int order.id.tick),
    ("side", order.side.toJson),
    ("price", .float order.price),
    ("qty", .float order.qty),
    ("status", order.status.toJson),
    ("cancellable", .bool order.cancellable)]

/-- A trade. -/
def Trade.toJson (trade : Trade Float) : Json :=
  .object [
    ("side", trade.side.toJson),
    ("price", .float trade.price),
    ("qty", .float trade.qty)]

end MarketMaking
