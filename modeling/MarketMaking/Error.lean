import MarketMaking.Order
import MarketMaking.Decimal.Layout

/-!
# Errors

What can go wrong while estimating, quoting, trading and recording, as causes, and the one text of
each cause.
-/

namespace MarketMaking

/-- Why no decay could be fitted. -/
inductive FitDefect where
  /-- Abscissae and ordinates differ in number. -/
  | lengthMismatch (xs ys : Nat)
  /-- A line needs two points. -/
  | tooFewPoints (count : Nat)
  /-- All abscissae are equal, or their spread is beyond the number range. -/
  | noVariance
  /-- The history is shorter than the calibration window. -/
  | shortHistory (held window : Nat)
  /-- Fewer than two buckets have a positive intensity. -/
  | sparseIntensity (buckets : Nat)
  /-- A cause known by its description only. -/
  | described (text : String)
  deriving DecidableEq, Repr

/-- The text of a fit defect. -/
def FitDefect.message : FitDefect → String
  | lengthMismatch xs ys => s!"x has {xs} points but y has {ys}"
  | tooFewPoints count => s!"need at least 2 points, got {count}"
  | noVariance => "x has zero variance"
  | shortHistory held window => s!"history holds {held} samples, window is {window}"
  | sparseIntensity buckets => s!"only {buckets} bucket(s) with positive intensity"
  | described text => text

/-- What makes a configuration unusable. -/
inductive ConfigDefect where
  | xi
  | gamma
  | delta
  | maxPosition
  | orderQty
  | calibrationWindow
  | calibrationCadence
  | historyCapacity
  | compactCapacity
  | volatilityNormalization
  | stepMillis
  | histogramBuckets
  | fitBuckets
  /-- A cause known by its description only. -/
  | described (text : String)
  deriving DecidableEq, Repr

/-- The text of a configuration defect. -/
def ConfigDefect.message : ConfigDefect → String
  | xi => "xi must be a positive finite number"
  | gamma => "gamma must be a positive finite number"
  | delta => "delta must be a positive finite number"
  | maxPosition => "max_position must be greater than zero"
  | orderQty => "order_qty must be greater than zero"
  | calibrationWindow => "calibration_window must be at least 2 steps"
  | calibrationCadence => "calibration_cadence must be at least 1 step"
  | historyCapacity => "history_capacity must be >= calibration_window"
  | compactCapacity => "history_overflow = compact needs history_capacity > calibration_window"
  | volatilityNormalization => "volatility_normalization must be a positive finite number"
  | stepMillis => "step_ms must be greater than zero"
  | histogramBuckets => "histogram_buckets must be at least 2"
  | fitBuckets => "fit_buckets must be between 2 and histogram_buckets"
  | described text => text

/-- A failed operation. -/
inductive Error (R : Type) where
  /-- The arrival history is full and may not drop samples. -/
  | historyCapacityExceeded (capacity : Nat)
  /-- No decay could be fitted. -/
  | degenerateFit (defect : FitDefect)
  /-- A fitted decay that no quote can be computed from. -/
  | invalidCalibration (a k : R)
  /-- A configuration that no strategy can run on. -/
  | invalidConfig (defect : ConfigDefect)
  /-- The venue refused an order. -/
  | orderRejected (id : OrderId) (reason : String)
  /-- Reading or writing failed. -/
  | io (text : String)
  /-- Writing a value as JSON failed. -/
  | json (text : String)
  deriving DecidableEq, Repr

namespace Error

/-- Does this failure leave the calibration as it was, so that a run can go on? -/
def isRecoverable {R : Type} : Error R → Bool
  | degenerateFit _ | invalidCalibration .. => true
  | _ => false

/-- The text of a failure. -/
def message : Error Float → String
  | historyCapacityExceeded capacity =>
      s!"history capacity {capacity} exceeded; run horizon is longer than the configured buffer"
  | degenerateFit defect => "degenerate fit: " ++ defect.message
  | invalidCalibration a k =>
      "invalid calibration: A=" ++ Decimal.plain.write a ++ ", k=" ++ Decimal.plain.write k
  | invalidConfig defect => "invalid config: " ++ defect.message
  | orderRejected id reason => s!"order {id.tick} rejected by harness: {reason}"
  | io text => text
  | json text => text

end Error

end MarketMaking
