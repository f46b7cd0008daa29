import MarketMaking.FileTree
import MarketMaking.Recorder.Csv
import MarketMaking.Recorder.JsonLines

/-!
# Statistics files

Statistics that are written to a path, in one of two formats. The directories on the way to the file
are created. Rows wait in a buffer before they are written, so that a full device refuses them only
when the buffer overflows or is flushed.
-/

namespace MarketMaking

/-- The format of a statistics file. -/
inductive StatsFormat where
  | csv
  | jsonLines
  deriving DecidableEq, Repr

/-- The ending of the name of a statistics file. -/
def StatsFormat.ending : StatsFormat → String
  | csv => "csv"
  | jsonLines => "jsonl"

/-- The line of a row. -/
def StatsFormat.line : StatsFormat → StepRecord Float → String
  | csv => Csv.line
  | jsonLines => JsonLines.line

/-- The writer of a statistics file. -/
inductive StatsWriter where
  | csv (writer : Csv.Writer)
  | jsonLines (writer : JsonLines.Writer)
  /-- The device is full: so many bytes wait in a buffer that cannot be written out. -/
  | stuck (format : StatsFormat) (waiting : Nat)

namespace StatsWriter

/-- The number of bytes that a buffer holds. -/
def bufferSize : Nat := 8192

/-- Take in a row. -/
def append (w : StatsWriter) (row : StepRecord Float) : Except (Error Float) Unit × StatsWriter :=
  match w with
  | csv writer => (.ok (), csv (writer.append row))
  | jsonLines writer =>
      let (result, writer) := writer.append row
      (result, jsonLines writer)
  | stuck format waiting =>
      let waiting := waiting + (format.line row).utf8ByteSize
      if waiting ≤ bufferSize then (.ok (), stuck format waiting) else (.error (.io noSpace), w)

/-- Take in rows up to the first failure. -/
def appendAll (w : StatsWriter) : List (StepRecord Float) → Except (Error Float) Unit × StatsWriter
  | [] => (.ok (), w)
  | row :: rows =>
      match w.append row with
      | (.ok (), w) => appendAll w rows
      | failed => failed

/-- A table takes in all rows in order. -/
theorem appendAll_csv (w : Csv.Writer) (rows : List (StepRecord Float)) :
    appendAll (csv w) rows = (.ok (), csv (rows.foldl Csv.Writer.append w)) := by
  induction rows generalizing w with
  | nil => rfl
  | cons row rows ih => exact ih (w.append row)

/-- Write out what waits. -/
def flush (w : StatsWriter) : Except (Error Float) Unit × StatsWriter :=
  match w with
  | csv writer => (.ok (), csv writer.flush)
  | jsonLines writer =>
      let (result, writer) := writer.flush
      (result, jsonLines writer)
  | stuck _ waiting => (if waiting = 0 then .ok () else .error (.io noSpace), w)

/-- The text that the writer has put into its file once it is closed. -/
def text (w : StatsWriter) : String :=
  match w with
  | csv writer => writer.closed
  | jsonLines writer => writer.text
  | stuck .. => ""

instance : Recorder StatsWriter Float where
  record := append
  flush := flush

end StatsWriter

/-- A statistics file that is open: where it is, what it held before, and its writer. -/
structure StatsFile where
  target : FileTree.Target
  writer : StatsWriter

/-- Why a statistics file could not be opened. -/
inductive StatsFileError where
  /-- A directory on the way could not be created. -/
  | directory (cause : FileError)
  /-- The file itself could not be opened. -/
  | file (cause : FileError)
  deriving DecidableEq, Repr

namespace StatsFile

/-- The writer for a target. Rows are appended to a table that exists already, and lines replace
what a file held before. -/
def writerFor (format : StatsFormat) (target : FileTree.Target) : StatsWriter :=
  match target, format with
  | .device .full, format => .stuck format 0
  | .file _ existing, .csv => .csv (Csv.Writer.opened existing.isNone)
  | .device _, .csv => .csv (Csv.Writer.opened false)
  | _, .jsonLines => .jsonLines (JsonLines.Writer.empty none noSpace false)

/-- Open a statistics file, creating the directories on the way to it. -/
def openAt (tree : FileTree) (path : String) (format : StatsFormat) :
    Except StatsFileError StatsFile × FileTree :=
  match Path.ofString? path with
  | none => (.error (.file .notFound), tree)
  | some p =>
      match tree.makeDirectories p.parent with
      | .error cause => (.error (.directory cause), tree)
      | .ok tree =>
          match tree.openForWriting p with
          | .error cause => (.error (.file cause), tree)
          | .ok target => (.ok ⟨target, writerFor format target⟩, tree)

/-- The tree after the file is closed. -/
def close (file : StatsFile) (tree : FileTree) : FileTree :=
  match file.target with
  | .device _ => tree
  | .file parts existing =>
      let before := match file.writer with
        | .csv _ => existing.getD ByteArray.empty
        | _ => ByteArray.empty
      tree.write parts (before ++ file.writer.text.toUTF8)

/-- One session with a table: open it, append rows, flush and close it. -/
def appendRows (tree : FileTree) (path : String) (rows : List (StepRecord Float)) :
    Except (Error Float) Unit × FileTree :=
  match openAt tree path .csv with
  | (.error (.directory cause), tree) | (.error (.file cause), tree) =>
      (.error (.io cause.message), tree)
  | (.ok file, tree) =>
      let (result, writer) := match file.writer.appendAll rows with
        | (.ok (), writer) => writer.flush
        | failed => failed
      (result, { file with writer }.close tree)

end StatsFile

end MarketMaking
