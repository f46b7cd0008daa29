import MarketMaking.Estimation.Series
import MarketMaking.Proofs.Schedule

/-!
# A history of samples and its two series

A history that keeps depths and changes in two series does the same as one that keeps samples. As
both series are extended and drained together, they are always of one length, and no position that
is drained or sliced lies outside them. The decay and the volatility of a window follow from the
ends of the two series.
-/

namespace MarketMaking

open Machine

variable {R : Type}

/-! ### Recording in two series -/

namespace ArrivalHistory

variable {h : ArrivalHistory R}

@[simp] theorem size_series (h : ArrivalHistory R) : h.series.size = h.size := h.length_depths

@[simp] theorem recorded_series (h : ArrivalHistory R) : h.series.recorded = h.recorded :=
  congrArg (h.dropped + ·) h.size_series

private theorem from?_depths {start : Nat} (le : start ≤ h.size) :
    from? h.series.depths start = some (h.depths.drop start) :=
  from?_eq_some (h.length_depths.symm ▸ le)

private theorem from?_changes {start : Nat} (le : start ≤ h.size) :
    from? h.series.changes start = some (h.changes.drop start) :=
  from?_eq_some (h.length_changes.symm ▸ le)

/-- The two series have one length. -/
theorem lockstep_series (h : ArrivalHistory R) :
    (guard (h.series.depths.length = h.series.changes.length) : Option Unit) = some () :=
  if_pos (h.length_depths.trans h.length_changes.symm)

private theorem series_compact (h : ArrivalHistory R) :
    h.compact.series = { h.series with
      depths := h.depths.drop (h.size - h.retain)
      changes := h.changes.drop (h.size - h.retain)
      dropped := h.dropped + (h.size - h.retain) } := by
  simp only [series, depths, changes, compact, toList_extract_size, List.map_drop]

/-- Room is made for a step that is not refused, by draining both series when they are full. -/
theorem makeRoom?_series (keeps : h.retain ≤ h.capacity) :
    h.series.makeRoom? = some (match h.refusal? with
      | some e => (.error e, h.series)
      | none => (.ok (), (if h.isFull then h.compact else h).series)) := by
  have hsize : h.series.size = h.size := h.size_series
  have hcapacity : h.series.capacity = h.capacity := rfl
  have hretain : h.series.retain = h.retain := rfl
  have hoverflow : h.series.overflow = h.overflow := rfl
  rw [SeriesHistory.makeRoom?, hsize, hcapacity, hoverflow, hretain, refusal?]
  by_cases room : h.size < h.capacity
  · have hfull : h.isFull = false := by simpa [isFull] using room
    rw [if_pos room, hfull]
    rfl
  · have hfull : h.isFull = true := by simpa [isFull] using room
    rw [if_neg room, hfull]
    cases hpolicy : h.overflow with
    | fail => rfl
    | compact =>
      have hexcess : sub? h.size h.retain = some (h.size - h.retain) := sub?_eq_some (by omega)
      rw [hexcess, Option.bind_eq_bind, Option.bind_some, lockstep_series, Option.bind_eq_bind,
        Option.bind_some]
      by_cases kept : h.size ≤ h.retain
      · rw [if_pos (by omega), if_pos (by simpa using kept)]
        rfl
      · rw [if_neg (by omega), if_neg (by simpa using kept), from?_depths (Nat.sub_le _ _),
          from?_changes (Nat.sub_le _ _)]
        simp only [if_true, series_compact]
        rw [← hoverflow.trans hpolicy]
        rfl

/-- A window of both series is one of the samples. -/
theorem window?_series (h : ArrivalHistory R) (n : Nat) :
    h.series.window? n = some ((h.window? n).map fun samples ↦
      (samples.map Sample.depth, samples.map Sample.change)) := by
  have hsize : h.series.size = h.size := h.size_series
  rw [SeriesHistory.window?, hsize, window?]
  by_cases short : n = 0 ∨ h.size < n
  · rw [if_pos short, if_pos short]
    rfl
  · have hstart : sub? h.size n = some (h.size - n) := sub?_eq_some (by omega)
    rw [if_neg short, if_neg short, hstart, Option.bind_eq_bind, Option.bind_some, lockstep_series,
      Option.bind_eq_bind, Option.bind_some, from?_depths (Nat.sub_le _ _),
      from?_changes (Nat.sub_le _ _), Option.map_some, last, toList_extract_size, List.map_drop,
      List.map_drop]
    rfl

variable [Scalar R]

private theorem series_push (h : ArrivalHistory R) (book : Book R) (trades : List (Trade R)) :
    (h.push book trades).series = { h.series with
      depths := h.series.depths ++ [(h.sampleOf book trades).depth]
      changes := h.series.changes ++ [(h.sampleOf book trades).change]
      mid := some book.mid } := by
  simp [series, depths, changes, push]

/-- Recording a step in two series records its sample. A step that is refused leaves both as they
were. -/
theorem record?_series (keeps : h.retain ≤ h.capacity) (book : Book R) (trades : List (Trade R)) :
    h.series.record? book trades = some (match h.record book trades with
      | .error e => (.error e, h.series)
      | .ok h => (.ok (), h.series)) := by
  rw [SeriesHistory.record?, makeRoom?_series keeps, record]
  cases h.refusal? with
  | some e => rfl
  | none =>
    have hadd : h.add book trades = (if h.isFull then h.compact else h).push book trades := by
      rw [add]
      split <;> rfl
    simp only [hadd, series_push]
    rfl

end ArrivalHistory

/-! ### The ends of the series -/

/-- A fit to the last window of a series is a fit to the series. -/
theorem Calibrator.fit_drop [Scalar R] (c : Calibrator R) (depths : List (Option R)) :
    c.fit (depths.drop (depths.length - c.window)) = c.fit depths := by
  by_cases few : depths.length < c.window
  · rw [Nat.sub_eq_zero_of_le (Nat.le_of_lt few), List.drop_zero]
  · have hlength : (depths.drop (depths.length - c.window)).length = c.window := by
      rw [List.length_drop]
      omega
    rw [fit_of_length_eq hlength, fit, if_neg few]

/-- An estimate from the last window of a series is one from the series. -/
theorem Volatility.estimate_drop [Scalar R] (window : Nat) (normalization : R)
    (changes : List (Option R)) :
    estimate window normalization (changes.drop (changes.length - window)) =
      estimate window normalization changes := by
  have hwindow : (changes.drop (changes.length - window)).drop
      ((changes.drop (changes.length - window)).length - window) =
        changes.drop (changes.length - window) := by
    rw [List.length_drop, List.drop_drop]
    congr 1
    omega
  rw [estimate, hwindow, estimate]

/-- The slice for an estimate is within the series. -/
theorem Volatility.estimate?_eq [Scalar R] (window : Nat) (normalization : R)
    (changes : List (Option R)) :
    estimate? window normalization changes = some (estimate window normalization changes) := by
  rw [estimate?, from?_eq_some (Nat.sub_le _ _)]
  rfl

namespace Strategy

/-- The depths of the last window are the end of their series. -/
theorem depths_window (s : Strategy R) : s.window.map Sample.depth =
    s.history.depths.drop (s.history.depths.length - s.config.calibrationWindow) := by
  rw [window, ArrivalHistory.last, ArrivalHistory.toList_extract_size, List.map_drop,
    ArrivalHistory.length_depths]
  rfl

/-- The changes of the last window are the end of their series. -/
theorem changes_window (s : Strategy R) : s.window.map Sample.change =
    s.history.changes.drop (s.history.changes.length - s.config.calibrationWindow) := by
  rw [window, ArrivalHistory.last, ArrivalHistory.toList_extract_size, List.map_drop,
    ArrivalHistory.length_changes]
  rfl

end Strategy

end MarketMaking
