import MarketMaking.Decimal.Layout
import MarketMaking.Recorder

/-!
# Comma-separated statistics

One row a step under a header line. Numbers have six places after the point; unknown and infinite
values leave their cell empty. Rows wait in memory until they are flushed.
-/

namespace MarketMaking.Csv

/-- The names of the columns. -/
def columns : List String :=
  ["step", "half_spread", "skew", "volatility", "a", "k", "bid_price", "ask_price", "position"]

/-- The line that a new file starts with. -/
def header : String := ",".intercalate columns ++ "\n"

/-- A number with six places; nothing for a number that is not finite. -/
def cell (x : Float) : String := String.ofList ((Decimal.fixedPoint? 6 x).getD [])

/-- The cells of a row. -/
def cells (row : StepRecord Float) : List String :=
  String.ofList (Decimal.digitChars row.step) ::
    [row.halfSpread, row.skew, row.volatility, row.a, row.k, row.bidPrice, row.askPrice,
      row.position].map cell

/-- The line of a row. -/
def line (row : StepRecord Float) : String := ",".intercalate (cells row) ++ "\n"

/-- A statistics file that is being appended to. -/
structure Writer where
  /-- The text written so far, behind what the file held before. -/
  written : String
  /-- The lines that wait to be written, the latest one first. -/
  pending : List String

/-- Start to append to a file. A new file starts with the header. -/
def Writer.opened (isNew : Bool) : Writer where
  written := ""
  pending := if isNew then [header] else []

/-- Take in a row. -/
def Writer.append (w : Writer) (row : StepRecord Float) : Writer :=
  { w with pending := line row :: w.pending }

/-- Write out what waits. -/
def Writer.flush (w : Writer) : Writer where
  written := w.written ++ String.join w.pending.reverse
  pending := []

/-- The text behind what the file held before, once the writer is closed: that writes out what still
waits. -/
def Writer.closed (w : Writer) : String := w.flush.written

instance : Recorder Writer Float where
  record w row := (.ok (), w.append row)
  flush w := (.ok (), w.flush)

end MarketMaking.Csv
