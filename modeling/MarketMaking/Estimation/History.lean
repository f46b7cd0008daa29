import MarketMaking.Book
import MarketMaking.Error

/-!
# Arrival history

For every step, how far from the previous middle market orders reached and how much the middle
moved. Depth is measured against the middle of the previous step, so that no sample looks ahead.
The history holds at most `capacity` samples; when it is full it either refuses further steps or
drops all but the latest ones.
-/

namespace MarketMaking

/-- What happens when the history is full. -/
inductive HistoryOverflow where
  /-- Refuse the step. -/
  | fail
  /-- Drop the oldest samples. -/
  | compact
  deriving DecidableEq, Repr

/-- What one step showed: the greatest depth that a trade reached, and the move of the middle.
Both are missing in the first step, and the depth also when no trade was printed. -/
structure Sample (R : Type) where
  depth : Option R
  change : Option R
  deriving Repr

/-- The samples held, oldest first, the latest middle, and what to do when no more fit. -/
structure ArrivalHistory (R : Type) where
  capacity : Nat
  overflow : HistoryOverflow
  /-- The number of samples kept when old ones are dropped. -/
  retain : Nat
  samples : Array (Sample R)
  mid : Option R
  /-- The number of samples dropped so far. -/
  dropped : Nat
  deriving Repr

variable {R : Type} [Scalar R]

namespace Trade

/-- How far beyond `mid` a trade reached, in ticks; negative when it stayed on the near side. -/
def depthFrom (trade : Trade R) (mid tickSize : R) : R :=
  let tick := trade.price / tickSize
  match trade.side with
  | .buy => tick - mid
  | .sell => mid - tick

/-- The greatest of the depths that are known. -/
def greatestDepth (depths : List R) : Option R :=
  depths.foldl (fun greatest depth => match greatest with
    | some best => some (Scalar.max best depth)
    | none => if Scalar.isNaN depth then none else some depth) none

end Trade

namespace ArrivalHistory

/-- A history without samples. At most `capacity` samples are kept when old ones are dropped. -/
def empty (capacity : Nat) (overflow : HistoryOverflow) (retain : Nat) : ArrivalHistory R where
  capacity
  overflow
  retain := min retain capacity
  samples := #[]
  mid := none
  dropped := 0

/-- The number of samples held. -/
def size (h : ArrivalHistory R) : Nat := h.samples.size

/-- The number of steps recorded, with those whose samples were dropped. -/
def recorded (h : ArrivalHistory R) : Nat := h.dropped + h.size

/-- The last `n` samples, oldest first; all of them when there are fewer. -/
def last (h : ArrivalHistory R) (n : Nat) : List (Sample R) :=
  (h.samples.extract (h.size - n) h.size).toList

/-- The last `n` samples, when that many are held and `n` is positive. -/
def window? (h : ArrivalHistory R) (n : Nat) : Option (List (Sample R)) :=
  if n = 0 ∨ h.size < n then none else some (h.last n)

/-- Drop all but the latest samples that are to be kept. -/
def compact (h : ArrivalHistory R) : ArrivalHistory R :=
  let excess := h.size - h.retain
  { h with
    samples := h.samples.extract excess h.size
    dropped := h.dropped + excess }

/-- Are as many samples held as fit? -/
def isFull (h : ArrivalHistory R) : Bool := h.capacity ≤ h.size

/-- Why no further step can be recorded, if that is so: a full history may not drop samples, or
would keep them all. -/
def refusal? (h : ArrivalHistory R) : Option (Error R) :=
  if h.isFull && (h.overflow = .fail || h.size ≤ h.retain) then
    some (.historyCapacityExceeded h.capacity)
  else none

omit [Scalar R] in
/-- Dropping samples leaves as many as are to be kept. -/
theorem size_compact (h : ArrivalHistory R) : h.compact.size = min h.retain h.size := by
  simp only [compact, size, Array.size_extract]
  omega

omit [Scalar R] in
/-- Dropping samples does not change how many steps were recorded. -/
theorem recorded_compact (h : ArrivalHistory R) : h.compact.recorded = h.recorded := by
  simp only [recorded, compact, size, Array.size_extract]
  omega

omit [Scalar R] in
/-- A step is refused unless there is room or dropping samples makes room. -/
theorem refusal?_eq_none_iff (h : ArrivalHistory R) :
    h.refusal? = none ↔ h.size < h.capacity ∨ (h.overflow = .compact ∧ h.retain < h.size) := by
  cases overflow : h.overflow with
  | fail => simp [refusal?, isFull, overflow]
  | compact =>
    simp [refusal?, isFull, overflow]
    omega

/-- The sample of a step with the given book and trades. -/
def sampleOf (h : ArrivalHistory R) (book : Book R) (trades : List (Trade R)) : Sample R where
  depth := h.mid.bind fun mid =>
    Trade.greatestDepth (trades.map (Trade.depthFrom · mid book.tickSize))
  change := h.mid.map (book.mid - ·)

/-- Add the sample of a step behind those held. -/
def push (h : ArrivalHistory R) (book : Book R) (trades : List (Trade R)) : ArrivalHistory R :=
  let sample := h.sampleOf book trades
  { h with samples := h.samples.push sample, mid := some book.mid }

/-- A new sample adds one to those held. -/
theorem size_push (h : ArrivalHistory R) (book : Book R) (trades : List (Trade R)) :
    (h.push book trades).size = h.size + 1 := by
  simp [push, size]

/-- A new sample adds one to the steps recorded. -/
theorem recorded_push (h : ArrivalHistory R) (book : Book R) (trades : List (Trade R)) :
    (h.push book trades).recorded = h.recorded + 1 := by
  simp only [recorded, size_push]
  rfl

/-- Add the sample of a step, after dropping old samples if no more fit. -/
def add (h : ArrivalHistory R) (book : Book R) (trades : List (Trade R)) : ArrivalHistory R :=
  if h.isFull then h.compact.push book trades else h.push book trades

/-- Every step that is added is counted, whether samples are dropped or not. -/
theorem recorded_add (h : ArrivalHistory R) (book : Book R) (trades : List (Trade R)) :
    (h.add book trades).recorded = h.recorded + 1 := by
  unfold add
  split
  · rw [recorded_push, recorded_compact]
  · exact recorded_push h book trades

/-- Record a step. A failure leaves the history as it was. -/
def record (h : ArrivalHistory R) (book : Book R) (trades : List (Trade R)) :
    Except (Error R) (ArrivalHistory R) :=
  match h.refusal? with
  | some e => .error e
  | none => .ok (h.add book trades)

end ArrivalHistory

end MarketMaking
