import MarketMaking.Proofs.Tape
import MarketMaking.Venue

/-!
# Markets and their samples

The samples of a session follow from the markets that it saw, each measured against the one before.
They are written on a tape of which the history holds the end, so that what is asked of a history is
asked of the markets: the window that ends with a step is the same, however long the tape grows.
-/

namespace MarketMaking

variable {R V : Type}

/-- What a strategy sees of the market in one step. -/
structure Market (R : Type) where
  book : Book R
  trades : List (Trade R)

/-- The last `window` samples of a tape up to that of step `i`. -/
def windowAt {α : Type} (tape : List α) (window i : Nat) : List α :=
  (tape.take (i + 1)).drop (i + 1 - window)

section Window

variable {α : Type} {tape : List α} {window i : Nat}

/-- A window that lies on the tape is full. -/
theorem length_windowAt (lt : i < tape.length) (full : window ≤ i + 1) :
    (windowAt tape window i).length = window := by
  rw [windowAt, List.length_drop, List.length_take]
  omega

/-- A window stays as it is when the tape grows. -/
theorem windowAt_append (more : List α) (lt : i < tape.length) :
    windowAt (tape ++ more) window i = windowAt tape window i := by
  rw [windowAt, List.take_append_of_le_length lt, windowAt]

/-- The window of the last step is the end of the tape. -/
theorem windowAt_last (last : i + 1 = tape.length) :
    windowAt tape window i = tape.drop (tape.length - window) := by
  rw [windowAt, last, List.take_length]

end Window

variable [Scalar R]

/-- The market at a venue. -/
def Venue.market [Venue V R] (v : V) : Market R := ⟨Venue.book v, Venue.lastTrades v⟩

namespace Market

/-- How far beyond the middle of the market before each trade of a market reached, in ticks. -/
def distances (m before : Market R) : List R :=
  m.trades.map fun trade ↦
    match trade.side with
    | .buy => trade.price / m.book.tickSize - before.book.mid
    | .sell => before.book.mid - trade.price / m.book.tickSize

/-- The sample of a market behind the one before, if there was one. -/
def sample (m : Market R) (before : Option (Market R)) : Sample R where
  depth := before.bind fun b ↦ Trade.greatestDepth (m.distances b)
  change := before.map fun b ↦ m.book.mid - b.book.mid

private theorem map_depthFrom (m before : Market R) :
    m.trades.map (Trade.depthFrom · before.book.mid m.book.tickSize) = m.distances before := by
  refine List.map_congr_left fun trade _ ↦ ?_
  unfold Trade.depthFrom
  cases trade.side <;> rfl

/-- The samples of markets in order, the first of them behind `before`. -/
def samplesBehind (before : Option (Market R)) : List (Market R) → List (Sample R)
  | [] => []
  | m :: markets => m.sample before :: samplesBehind (some m) markets

/-- The samples of all markets of a session. -/
def samples (markets : List (Market R)) : List (Sample R) := samplesBehind none markets

/-- There is a sample for every market. -/
@[simp] theorem length_samples (markets : List (Market R)) :
    (samples markets).length = markets.length := by
  have hlength (before : Option (Market R)) :
      (samplesBehind before markets).length = markets.length := by
    induction markets generalizing before with
    | nil => rfl
    | cons m markets ih => rw [samplesBehind, List.length_cons, List.length_cons, ih]
  exact hlength none

/-- One more market is measured against the last one. -/
theorem samples_append (markets : List (Market R)) (m : Market R) :
    samples (markets ++ [m]) = samples markets ++ [m.sample markets.getLast?] := by
  have hbehind (before : Option (Market R)) :
      samplesBehind before (markets ++ [m]) =
        samplesBehind before markets ++ [m.sample (markets.getLast?.or before)] := by
    induction markets generalizing before with
    | nil => rfl
    | cons first markets ih =>
      rw [List.cons_append, samplesBehind, samplesBehind, ih, List.cons_append, List.getLast?_cons]
      cases markets.getLast? <;> rfl
  rw [samples, hbehind, Option.or_none]
  rfl

/-- A market of which a depth is known has a change: both are measured against the market before. -/
theorem change_isSome_of_mem {markets : List (Market R)} {sample : Sample R}
    (mem : sample ∈ samples markets) (depth : sample.depth.isSome = true) :
    sample.change.isSome = true := by
  rw [samples] at mem
  generalize (none : Option (Market R)) = before at mem
  induction markets generalizing before with
  | nil => cases mem
  | cons m markets ih =>
    rcases List.mem_cons.mp mem with rfl | behind
    · cases before with
      | none => cases depth
      | some b => rfl
    · exact ih (some m) behind

end Market

namespace ArrivalHistory

variable {h : ArrivalHistory R} {markets : List (Market R)} {window : Nat}

/-- A history that has recorded exactly these markets and never loses one of the last `window`
samples. -/
structure Records (h : ArrivalHistory R) (markets : List (Market R)) (window : Nat) : Prop where
  holds : h.Holds (Market.samples markets)
  mid : h.mid = markets.getLast?.map (·.book.mid)
  keeps : h.Keeps window
  retain : window ≤ h.retain
  fits : window ≤ h.capacity

/-- The empty history has recorded no market. -/
theorem records_empty {capacity : Nat} (overflow : HistoryOverflow) (fits : window ≤ capacity) :
    (empty capacity overflow window : ArrivalHistory R).Records [] window where
  holds := holds_empty _ _ _
  mid := rfl
  keeps := .inl rfl
  retain := Nat.le_min.mpr ⟨Nat.le_refl window, fits⟩
  fits := fits

namespace Records

/-- One more market is recorded behind the others. -/
theorem add (records : h.Records markets window) (m : Market R) :
    (h.add m.book m.trades).Records (markets ++ [m]) window := by
  have hsample : h.sampleOf m.book m.trades = m.sample markets.getLast? := by
    unfold sampleOf Market.sample
    rw [records.mid]
    cases markets.getLast? with
    | none => rfl
    | some before =>
      have hdepth := m.map_depthFrom before
      simp only [Option.map_some, Option.bind_some, hdepth]
  constructor
  · rw [Market.samples_append, ← hsample]
    exact records.holds.add m.book m.trades
  · rw [mid_add, List.getLast?_concat]
    rfl
  · exact records.keeps.add records.retain records.fits m.book m.trades
  · rw [retain_add]
    exact records.retain
  · rw [capacity_add]
    exact records.fits

/-- As many steps were recorded as there were markets. -/
theorem recorded_eq (records : h.Records markets window) :
    h.recorded = markets.length := by
  rw [records.holds.recorded_eq, Market.length_samples]

/-- The window is full as soon as there were that many markets. -/
theorem le_size_iff (records : h.Records markets window) :
    window ≤ h.size ↔ window ≤ markets.length := by
  rw [records.keeps.le_size_iff, records.recorded_eq]

/-- The last window of the history is that of the last market. -/
theorem last_eq (records : h.Records markets window) {i : Nat} (last : i + 1 = markets.length) :
    h.last window = windowAt (Market.samples markets) window i := by
  have hlast : i + 1 = (Market.samples markets).length := by
    rw [Market.length_samples]
    exact last
  rw [records.holds.last_eq records.keeps, windowAt_last hlast]

end Records

end ArrivalHistory

end MarketMaking
