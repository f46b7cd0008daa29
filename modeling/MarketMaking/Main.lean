import MarketMaking.Backtest
import Std.Time.DateTime.Timestamp

/-!
# Command line

Runs the synthetic backtest in the working directory. It loads what the backtest may read, lets it
run, writes what it has written and prints its log and its totals.
-/

namespace MarketMaking.CommandLine

/-- The variables that a backtest looks at. -/
def variableNames : List String := [
  "RUST_LOG", "GLFT_CONFIG", "GLFT_DEMO_STEPS", "GLFT_STATS_FORMAT", "GLFT_STATS_CSV_PATH",
  "GLFT_XI", "GLFT_GAMMA", "GLFT_DELTA", "GLFT_MAX_POSITION", "GLFT_ORDER_QTY",
  "GLFT_CALIBRATION_WINDOW", "GLFT_CALIBRATION_CADENCE", "GLFT_HISTORY_CAPACITY",
  "GLFT_HISTORY_OVERFLOW", "GLFT_VOLATILITY_NORMALIZATION", "GLFT_STEP_MS",
  "GLFT_HISTOGRAM_BUCKETS", "GLFT_FIT_BUCKETS"]

/-- The runs of characters of a class in a text. -/
def runsOf (inClass : Char → Bool) (text : String) : List String :=
  let spaced := text.toList.map fun c => if inClass c then c else ' '
  ((String.ofList spaced).splitOn " ").filter (· ≠ "")

/-- The names that a text may refer to. -/
def namesIn (text : String) : List String :=
  runsOf Text.isAlphanumeric text ++ runsOf (fun c => c.isAlphanum || c = '_' || c = '.') text

/-- The variables with the given names that are set. -/
def readVariables (names : List String) : IO Environment :=
  names.filterMapM fun name => do return (← IO.getEnv name).map (name, ·)

/-- The content of a regular file, if there is one. Devices are not read. -/
def readFile? (path : String) : IO (Option ByteArray) := do
  try
    let place := (← IO.currentDir) / path
    if (← place.metadata).type == .file then return some (← IO.FS.readBinFile place)
    else return none
  catch _ => return none

/-- Load what a path names, with the directories on the way to it. -/
def loadPath (tree : FileTree) (parts : List String) : IO FileTree := do
  let base ← IO.currentDir
  let mut tree := tree
  let mut place : List String := []
  for part in parts do
    place := tree.descend place part
    let text := FileTree.pathText place
    if ← (base / text).isDir then
      tree := { tree with directories := tree.directories ++ [place] }
    else if let some content ← readFile? text then tree := tree.write place content
  return tree

/-- Load what the path with the given text names. -/
def loadText (tree : FileTree) (path : String) : IO FileTree :=
  match Path.ofString? path with
  | some p => if p.holdsNul || p.isTooLong then return tree else loadPath tree p.parts
  | none => return tree

/-- Write the files that a backtest has changed. -/
def writeChanges (before after : FileTree) : IO Unit := do
  for place in after.directories do
    if !before.directories.contains place then IO.FS.createDirAll (FileTree.pathText place)
  for (place, content) in after.files do
    if (before.files.lookup place).map ByteArray.toList ≠ some content.toList then
      IO.FS.writeBinFile (FileTree.pathText place) content

/-- Print what a backtest reports. The log goes to standard output in front of the totals, a failure
to standard error. -/
def printReport (report : Backtest.Report) : IO UInt32 := do
  if let some plan := report.started then
    IO.println ("INFO glft_backtest: starting synthetic backtest " ++ plan.logText)
  if let some completion := report.completed then
    IO.println ("INFO glft_backtest: backtest complete " ++ completion.logText ++ " "
      ++ completion.stateText)
  if let some summary := report.summary then IO.println (summary.toJson.pretty "")
  match report.failure with
  | some text =>
    IO.eprintln ("Error: " ++ text)
    return 1
  | none => return 0

/-- The number of seconds since 1970. -/
def secondsNow : IO Nat := do
  return (← Std.Time.Timestamp.now).toSecondsSinceUnixEpoch.val.toNat

/-- The working directory without its entries. -/
def emptyTree : IO FileTree := do
  return FileTree.empty (Path.parts ⟨(← IO.currentDir).toString⟩).tail.length

/-- Run the backtest in the working directory. -/
def runHere : IO UInt32 := do
  let dotEnv := (← readFile? ".env").bind String.fromUTF8?
  let given ← readVariables (variableNames ++ namesIn (dotEnv.getD "")).eraseDups
  let tree ← loadText (← emptyTree) ".env"
  let env := Backtest.environment tree given
  let tree ← loadText tree (Backtest.configPath env)
  let timestamp ← secondsNow
  let tree ← match Backtest.plan tree env timestamp with
    | .ok plan => loadText tree plan.statsPath
    | .error _ => pure tree
  let report := Backtest.run tree given timestamp
  writeChanges tree report.files
  printReport report

end MarketMaking.CommandLine

/-- The entry point: the backtest takes no arguments. -/
def main : IO UInt32 := MarketMaking.CommandLine.runHere
