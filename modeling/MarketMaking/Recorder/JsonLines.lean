import MarketMaking.Json.Encode
import MarketMaking.Recorder

/-!
# Statistics as JSON lines

One JSON object a step, each on its own line.
-/

namespace MarketMaking.JsonLines

/-- The line of a row. -/
def line (row : StepRecord Float) : String := row.toJson.compact ++ "\n"

/-- A sink for text that may be bounded and that may refuse to be flushed. -/
structure Writer where
  /-- The lines written, the latest one first. -/
  lines : List String
  /-- The number of bytes written. -/
  size : Nat
  /-- The number of bytes that fit. -/
  limit : Option Nat
  /-- The text of the failure to write more. -/
  fullText : String
  /-- Is the flush refused? -/
  refuseFlush : Bool

/-- A sink without any text. -/
def Writer.empty (limit : Option Nat) (fullText : String) (refuseFlush : Bool) : Writer :=
  ⟨[], 0, limit, fullText, refuseFlush⟩

/-- The text written. -/
def Writer.text (w : Writer) : String := String.join w.lines.reverse

/-- Is there room for so many more bytes? -/
def Writer.hasRoom (w : Writer) (bytes : Nat) : Bool :=
  w.limit.all fun limit => w.size + bytes ≤ limit

/-- Write a row: first the object, then the end of the line. Which of the two does not fit decides
the kind of failure; nothing of such a row counts as written. -/
def Writer.append (w : Writer) (row : StepRecord Float) : Except (Error Float) Unit × Writer :=
  let object := row.toJson.compact
  let bytes := object.utf8ByteSize
  if !w.hasRoom bytes then (.error (.json w.fullText), w)
  else if !w.hasRoom (bytes + 1) then (.error (.io w.fullText), w)
  else (.ok (), { w with lines := (object ++ "\n") :: w.lines, size := w.size + bytes + 1 })

/-- Flush the sink. -/
def Writer.flush (w : Writer) : Except (Error Float) Unit × Writer :=
  (if w.refuseFlush then .error (.io "flush failed") else .ok (), w)

instance : Recorder Writer Float where
  record := Writer.append
  flush := Writer.flush

end MarketMaking.JsonLines
