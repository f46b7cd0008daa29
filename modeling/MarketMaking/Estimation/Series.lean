import MarketMaking.Estimation.History
import MarketMaking.Estimation.Volatility
import MarketMaking.Machine

/-!
# Depths and changes in series of their own

A history can keep its depths and its changes in two series, which are extended, drained and sliced
one after the other. A call that fails leaves such a history in some state too, and this is part of
its result. There is none where an operation leaves its domain, or where the two series would be
drained or sliced at different lengths.
-/

namespace MarketMaking

open Machine

variable {R : Type}

/-- A history that keeps depths and changes in series of their own. -/
structure SeriesHistory (R : Type) where
  capacity : Nat
  overflow : HistoryOverflow
  /-- The number of entries kept when old ones are drained. -/
  retain : Nat
  depths : List (Option R)
  changes : List (Option R)
  mid : Option R
  /-- The number of entries drained so far. -/
  dropped : Nat

namespace SeriesHistory

/-- A history without entries. -/
def empty (capacity : Nat) (overflow : HistoryOverflow) (retain : Nat) : SeriesHistory R where
  capacity
  overflow
  retain := min retain capacity
  depths := []
  changes := []
  mid := none
  dropped := 0

/-- The number of entries held. -/
def size (h : SeriesHistory R) : Nat := h.depths.length

/-- The number of steps recorded, with those whose entries were drained. -/
def recorded (h : SeriesHistory R) : Nat := h.dropped + h.size

/-- The number of steps recorded, if it fits in a word. -/
def recorded? (h : SeriesHistory R) : Option Nat := add? h.dropped h.size

/-- Make room for one more entry, if that can be done. -/
def makeRoom? (h : SeriesHistory R) : Option (Except (Error R) Unit × SeriesHistory R) :=
  if h.size < h.capacity then some (.ok (), h)
  else
    match h.overflow with
    | .fail => some (.error (.historyCapacityExceeded h.capacity), h)
    | .compact => do
        let excess ← sub? h.size h.retain
        if excess = 0 then
          return (.error (.historyCapacityExceeded h.capacity), h)
        else
          guard (h.depths.length = h.changes.length)
          let depths ← from? h.depths excess
          let changes ← from? h.changes excess
          return (.ok (), { h with depths, changes, dropped := h.dropped + excess })

/-- The last `n` entries of both series, when that many are held and `n` is positive. -/
def window? (h : SeriesHistory R) (n : Nat) :
    Option (Option (List (Option R) × List (Option R))) :=
  if n = 0 ∨ h.size < n then some none
  else do
    let start ← sub? h.size n
    guard (h.depths.length = h.changes.length)
    return some (← from? h.depths start, ← from? h.changes start)

variable [Scalar R]

/-- Record a step. -/
def record? (h : SeriesHistory R) (book : Book R) (trades : List (Trade R)) :
    Option (Except (Error R) Unit × SeriesHistory R) := do
  match ← h.makeRoom? with
  | (.error e, h) => return (.error e, h)
  | (.ok (), h) =>
      let depth := h.mid.bind fun mid ↦
        Trade.greatestDepth (trades.map (Trade.depthFrom · mid book.tickSize))
      let change := h.mid.map (book.mid - ·)
      return (.ok (), { h with
        depths := h.depths ++ [depth]
        changes := h.changes ++ [change]
        mid := some book.mid })

end SeriesHistory

/-! ### A history of samples as two series -/

namespace ArrivalHistory

/-- The depths held, oldest first. -/
def depths (h : ArrivalHistory R) : List (Option R) := h.samples.toList.map Sample.depth

/-- The changes held, oldest first. -/
def changes (h : ArrivalHistory R) : List (Option R) := h.samples.toList.map Sample.change

@[simp] theorem length_depths (h : ArrivalHistory R) : h.depths.length = h.size :=
  List.length_map _

@[simp] theorem length_changes (h : ArrivalHistory R) : h.changes.length = h.size :=
  List.length_map _

/-- The history with depths and changes in series of their own. -/
def series (h : ArrivalHistory R) : SeriesHistory R where
  capacity := h.capacity
  overflow := h.overflow
  retain := h.retain
  depths := h.depths
  changes := h.changes
  mid := h.mid
  dropped := h.dropped

end ArrivalHistory

/-- Estimate the volatility from the last window of a series of changes. The start of a window that
is longer than the series is its first entry. -/
def Volatility.estimate? [Scalar R] (window : Nat) (normalization : R) (changes : List (Option R)) :
    Option (Option R) := do
  let samples ← from? changes (changes.length - window)
  return match usable samples with
    | [] => none
    | xs => Scalar.finite? (Scalar.sqrt (variance xs) * normalization)

end MarketMaking
