import MarketMaking.Event
import MarketMaking.LogLevel

/-!
# Log lines

The level, the text and the fields under which events are logged.
-/

namespace MarketMaking

/-- The value of a log field. -/
inductive LogValue where
  | float (value : Float)
  | int (value : Int)
  | text (value : String)
  deriving Repr

/-- One log line. -/
structure LogLine where
  level : LogLevel
  message : String
  fields : List (String × LogValue)
  deriving Repr

/-- A number of things. -/
def LogValue.count (n : Nat) : LogValue := .int (Int.ofNat n)

/-- An order identifier, as text. -/
def OrderId.logValue (id : OrderId) : LogValue := .text (toString id.tick)

/-- The fields of a request for a new order. -/
def OrderRequest.logFields (request : OrderRequest Float) : List (String × LogValue) := [
  ("side", .text request.side.name),
  ("order_id", request.id.logValue),
  ("price", .float request.price)]

/-- The log line of an event. Refused cancellations are not logged, and of failed requests only
rejections are. -/
def Event.logLine? : Event Float → Option LogLine
  | historyCompacted dropped retained =>
      some ⟨.debug, "arrival history compacted",
        [("dropped", .count dropped), ("retained", .count retained)]⟩
  | calibrated step state c halfSpread skew =>
      some ⟨.info, "calibrated", [
        ("step", .count step),
        ("a", .float state.a),
        ("k", .float state.k),
        ("c1", .float c.c1),
        ("c2", .float c.c2),
        ("half_spread", .float halfSpread),
        ("skew", .float skew),
        ("volatility", .float state.volatility)]⟩
  | calibratedUnusable step state cause =>
      some ⟨.info, "calibrated with unusable fit: " ++ cause.message,
        [("step", .count step), ("a", .float state.a), ("k", .float state.k)]⟩
  | calibrationSkipped step cause =>
      some ⟨.warn, "calibration skipped, keeping previous state: " ++ cause.message,
        [("step", .count step)]⟩
  | warmedUp step window =>
      some ⟨.info, "warm-up complete, quoting enabled",
        [("step", .count step), ("window", .count window)]⟩
  | quotingSuppressed step cause =>
      some ⟨.debug, "quoting suppressed: " ++ cause.message, [("step", .count step)]⟩
  | cancelRequested id accepted =>
      if accepted then some ⟨.debug, "cancelled stale quote", [("order_id", id.logValue)]⟩
      else none
  | orderRequested request none => some ⟨.debug, "submitted quote", request.logFields⟩
  | orderRequested request (some e) =>
      match e with
      | .orderRejected .. => some ⟨.warn, "quote rejected: " ++ e.message, request.logFields⟩
      | _ => none
  | runFinished summary =>
      some ⟨.info, "run finished", [
        ("steps", .count summary.steps),
        ("calibrations", .count summary.calibrations),
        ("failed_calibrations", .count summary.failedCalibrations),
        ("orders_submitted", .count summary.ordersSubmitted),
        ("orders_cancelled", .count summary.ordersCancelled)]⟩

end MarketMaking
