import MarketMaking.Config.Loading
import MarketMaking.DotEnv
import MarketMaking.LogFilter
import MarketMaking.Recorder.StatsFile
import MarketMaking.Strategy.Run
import MarketMaking.Venue.RandomWalk

/-!
# The synthetic backtest

The whole program: a strategy on a configuration from file and environment, run against a random
market with a fixed seed, with its statistics written to a file. It is a function from the files
and the environment that it starts with to what it prints and the files that it leaves.
-/

namespace MarketMaking.Backtest

/-- The parameters of a backtest. -/
structure Plan where
  config : Config Float
  steps : Nat
  format : StatsFormat
  statsPath : String

/-- What is logged when the market has been run through. -/
structure Completion where
  fills : Nat
  position : Float
  state : Calibration Float

/-- What a backtest prints, and the files after it. -/
structure Report where
  /-- The text of the failure that ended it. -/
  failure : Option String
  /-- The plan, if the start is logged. -/
  started : Option Plan
  /-- The fills and the inventory at the end, if the end is logged. -/
  completed : Option Completion
  /-- The totals, if the run came to its end. -/
  summary : Option (Summary Float)
  files : FileTree

/-- The seed of the market. -/
def seed : UInt64 := 42

/-! ## Preparation -/

/-- The environment with the variables of the file `.env` in the working directory. -/
def environment (files : FileTree) (env : Environment) : Environment :=
  match files.lookup? ".env" with
  | some (.file content) => DotEnv.load content env
  | _ => env

/-- The path of the configuration file. -/
def configPath (env : Environment) : String := (env.get? "GLFT_CONFIG").getD "glft.toml"

/-- The configuration without a file: the defaults with a shorter window, so that quoting starts
within the session. -/
def defaultConfig : Config Float :=
  { Config.default with calibrationWindow := 600, calibrationCadence := 50 }

/-- The configuration in a file, over which the environment is layered. -/
def configAt (files : FileTree) (path : String) (env : Environment) :
    Except LoadError (Config Float) :=
  match (files.read? path).bind String.fromUTF8? with
  | some text => Config.ofText text env
  | none => .error (.unreadable path)

/-- The configuration of a backtest. Without a file the environment has no part in it. -/
def config (files : FileTree) (env : Environment) : Except LoadError (Config Float) :=
  let path := configPath env
  if (files.lookup? path).isSome then configAt files path env
  else defaultConfig.check

/-- The format of the statistics. -/
def format (env : Environment) : StatsFormat :=
  if ((env.get? "GLFT_STATS_FORMAT").map String.toLower) = some "jsonl" then .jsonLines else .csv

/-- The number of steps where none is given: five windows, counted in 64 bits. -/
def defaultSteps (window : Nat) : Nat := window * 5 % pow2 64

/-- The plan of a backtest that starts at `timestamp`, which names its statistics where no other
name is given. -/
def plan (files : FileTree) (env : Environment) (timestamp : Nat) : Except LoadError Plan := do
  let config ← config files env
  let format := format env
  return {
    config
    steps := env.nat "GLFT_DEMO_STEPS" (defaultSteps config.calibrationWindow)
    format
    statsPath := config.statsPath.getD s!"logs/glft/session-{timestamp}.{format.ending}" }

/-! ## Log -/

/-- The filter that the environment asks for. Where it asks for none, or for one that is malformed,
the two events of a backtest are logged. -/
def logFilter (env : Environment) : LogFilter :=
  ((env.get? "RUST_LOG").bind LogFilter.ofText?).getD (LogFilter.ofThreshold (.upTo .info))

/-- The event that a backtest starts. -/
def startEvent : LogEvent :=
  ⟨"glft_backtest", .info, ["message", "steps", "window", "cadence", "stats"]⟩

/-- The event that a backtest has come to its end. -/
def endEvent : LogEvent :=
  ⟨"glft_backtest", .info, ["message", "fills", "position", "a", "k", "volatility"]⟩

/-! ## The run -/

/-- A backtest that failed before its run. -/
def Report.failed (text : String) (files : FileTree) : Report :=
  ⟨some text, none, none, none, files⟩

/-- The text of a failure to open the statistics file. The directories of a table are part of the
table; those of JSON lines are made on their own. -/
def openFailure (format : StatsFormat) (e : StatsFileError) : String :=
  match format, e with
  | .csv, _ => "failed to initialise stats recorder"
  | .jsonLines, .directory cause => cause.message
  | .jsonLines, .file _ => "failed to create stats file"

/-- Run a strategy through the market, writing to an open file. What has been recorded is in the
file also when the run fails. -/
def runPlan (plan : Plan) (filter : LogFilter) (file : StatsFile) (files : FileTree) : Report :=
  let started := if filter.allows startEvent then some plan else none
  match Strategy.start plan.config with
  | .error e => ⟨some e.message, started, none, none, file.close files⟩
  | .ok strategy =>
      let outcome := strategy.run plan.steps (RandomWalk.start plan.steps seed) file.writer
      let files := { file with writer := outcome.recorder }.close files
      match outcome.result with
      | .error e => ⟨some e.message, started, none, none, files⟩
      | .ok summary =>
          let completion : Completion :=
            ⟨outcome.venue.fills, outcome.venue.position, summary.finalState⟩
          let completed := if filter.allows endEvent then some completion else none
          ⟨none, started, completed, some summary, files⟩

/-- Run a backtest on the files of a working directory and the environment. -/
def run (files : FileTree) (env : Environment) (timestamp : Nat) : Report :=
  let env := environment files env
  match plan files env timestamp with
  | .error e => Report.failed e.message files
  | .ok plan =>
      match StatsFile.openAt files plan.statsPath plan.format with
      | (.error e, files) => Report.failed (openFailure plan.format e) files
      | (.ok file, files) => runPlan plan (logFilter env) file files

/-! ## What is printed -/

/-- The fields of the line that logs the start. -/
def Plan.logText (plan : Plan) : String :=
  s!"steps={plan.steps} window={plan.config.calibrationWindow} " ++
    s!"cadence={plan.config.calibrationCadence} stats={plan.statsPath}"

/-- The first two fields of the line that logs the end. -/
def Completion.logText (c : Completion) : String :=
  s!"fills={c.fills} position=" ++ Decimal.pointed.write c.position

/-- The fields of the line that logs the end that describe the calibrated state. -/
def Completion.stateText (c : Completion) : String :=
  "a=" ++ Decimal.pointed.write c.state.a ++ " k=" ++ Decimal.pointed.write c.state.k ++
    " volatility=" ++ Decimal.pointed.write c.state.volatility

end MarketMaking.Backtest
