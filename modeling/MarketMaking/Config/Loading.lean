import MarketMaking.Config
import MarketMaking.Environment
import MarketMaking.Toml.Document

/-!
# Loading a configuration

A configuration has three layers: a variable of the environment wins over the document, and the
document over the defaults. The conditions on a configuration are checked after layering, so that
the environment may repair a document or break it.
-/

namespace MarketMaking

/-- Why no configuration could be loaded. -/
inductive LoadError where
  /-- There is no such file, or it holds no text. -/
  | unreadable (path : String)
  /-- The text is not a TOML document. -/
  | malformedDocument
  /-- A parameter has a value of the wrong kind. -/
  | malformedStructure
  /-- The layered configuration has a defect. -/
  | invalid (defect : ConfigDefect)
  deriving DecidableEq, Repr

/-- The text of a loading error. -/
def LoadError.message : LoadError → String
  | unreadable path => "Failed to read " ++ path
  | malformedDocument => "Failed to parse TOML config"
  | malformedStructure => "Invalid glft config structure"
  | invalid defect => defect.message

namespace Toml.Table

/-- The number under a key, or `fallback` when there is no such key. Integers count as numbers. -/
def float? (t : Table) (key : String) (fallback : Float) : Option Float :=
  match t.get? key with
  | none => some fallback
  | some (.float x) => some x
  | some (.integer n) => some (Float.ofInt n)
  | some _ => none

/-- The natural number under a key, or `fallback` when there is no such key. -/
def nat? (t : Table) (key : String) (fallback : Nat) : Option Nat :=
  match t.get? key with
  | none => some fallback
  | some (.integer (.ofNat n)) => some n
  | some _ => none

/-- The text under a key, if there is one. Dates and times count as text. -/
def text? (t : Table) (key : String) : Option (Option String) :=
  match t.get? key with
  | none => some none
  | some (.string text) => some (some text)
  | some (.datetime d) => some (some d.toText)
  | some _ => none

end Toml.Table

namespace HistoryOverflow

/-- The policy with the given name. -/
def named? (name : String) : Option HistoryOverflow :=
  if name = "fail" then some .fail
  else if name = "compact" then some .compact
  else none

/-- The policy that a value names: the name itself, or a table whose only key is the name and whose
value is an empty array or table. -/
def ofValue? : Toml.Value → Option HistoryOverflow
  | .string name => named? name
  | .table _ [(name, .array [])] => named? name
  | .table _ [(name, .table _ [])] => named? name
  | _ => none

end HistoryOverflow

namespace Config

/-- The table that holds the parameters: the whole document, or `glft` in it when that is a table.
Nothing when the document stands for something else than a table. -/
def parameters? : Toml.Value → Option Toml.Table
  | .table origin entries =>
      match entries.lookup "glft" with
      | some (.table origin entries) => some ⟨origin, entries⟩
      | _ => some ⟨origin, entries⟩
  | _ => none

/-- The parameters of a table over the defaults; nothing when one has a value of the wrong kind.
Other keys are ignored. -/
def ofTable? (t : Toml.Table) : Option (Config Float) := do
  let d := default
  return {
    xi := ← t.float? "xi" d.xi
    gamma := ← t.float? "gamma" d.gamma
    delta := ← t.float? "delta" d.delta
    maxPosition := ← t.float? "max_position" d.maxPosition
    orderQty := ← t.float? "order_qty" d.orderQty
    calibrationWindow := ← t.nat? "calibration_window" d.calibrationWindow
    calibrationCadence := ← t.nat? "calibration_cadence" d.calibrationCadence
    historyCapacity := ← t.nat? "history_capacity" d.historyCapacity
    historyOverflow := ← match t.get? "history_overflow" with
      | none => some d.historyOverflow
      | some value => HistoryOverflow.ofValue? value
    volatilityNormalization := ← t.float? "volatility_normalization" d.volatilityNormalization
    stepMillis := ← t.nat? "step_ms" d.stepMillis
    histogramBuckets := ← t.nat? "histogram_buckets" d.histogramBuckets
    fitBuckets := ← t.nat? "fit_buckets" d.fitBuckets
    statsPath := ← t.text? "stats_csv_path" }

/-- A configuration with the variables of the environment in place of its own parameters. -/
def override (c : Config Float) (env : Environment) : Config Float where
  xi := env.float "GLFT_XI" c.xi
  gamma := env.float "GLFT_GAMMA" c.gamma
  delta := env.float "GLFT_DELTA" c.delta
  maxPosition := env.float "GLFT_MAX_POSITION" c.maxPosition
  orderQty := env.float "GLFT_ORDER_QTY" c.orderQty
  calibrationWindow := env.nat "GLFT_CALIBRATION_WINDOW" c.calibrationWindow
  calibrationCadence := env.nat "GLFT_CALIBRATION_CADENCE" c.calibrationCadence
  historyCapacity := env.nat "GLFT_HISTORY_CAPACITY" c.historyCapacity
  historyOverflow :=
    (((env.get? "GLFT_HISTORY_OVERFLOW").map String.toLower).bind HistoryOverflow.named?).getD
      c.historyOverflow
  volatilityNormalization := env.float "GLFT_VOLATILITY_NORMALIZATION" c.volatilityNormalization
  stepMillis := env.nat "GLFT_STEP_MS" c.stepMillis
  histogramBuckets := env.nat "GLFT_HISTOGRAM_BUCKETS" c.histogramBuckets
  fitBuckets := env.nat "GLFT_FIT_BUCKETS" c.fitBuckets
  statsPath := (env.get? "GLFT_STATS_CSV_PATH").or c.statsPath

/-- Check the conditions on a configuration. -/
def check (c : Config Float) : Except LoadError (Config Float) :=
  match c.defect? with
  | some defect => .error (.invalid defect)
  | none => .ok c

/-- Layer the environment over a document. -/
def ofDocument (document : Toml.Value) (env : Environment) : Except LoadError (Config Float) :=
  match (parameters? document).bind ofTable? with
  | some c => (c.override env).check
  | none => .error .malformedStructure

/-- Load a configuration from the text of a document and the environment. -/
def ofText (text : String) (env : Environment) : Except LoadError (Config Float) :=
  match Toml.parse? text with
  | some document => ofDocument document env
  | none => .error .malformedDocument

end Config

end MarketMaking
