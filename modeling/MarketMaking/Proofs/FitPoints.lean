import MarketMaking.Estimation.Calibrator
import MarketMaking.Proofs.ArrivalCounts

/-!
# The points of a fit

Every bucket before the deepest one is reached by an arrival. As long as each of their counts stands
for a positive intensity, no bucket is left out of a fit: its abscissae are the centres of the
buckets one after another, and its ordinates the logarithms of their intensities. What lies before
the last window is of no account.
-/

namespace MarketMaking.Calibrator

variable {R : Type} [Scalar R]

open Scalar

/-- The depths of the last window. -/
def lastWindow (c : Calibrator R) (depths : List (Option R)) : List (Option R) :=
  depths.drop (depths.length - c.window)

/-- The counts that enter a fit: the cumulative ones of a window, as many as fit. -/
def fitted (c : Calibrator R) (depths : List (Option R)) : List Nat :=
  (Histogram.cumulative c.histogramBuckets depths).take c.fitBuckets

/-- The intensity that a count stands for. -/
def intensity (c : Calibrator R) (count : Nat) : R := ofNat count / c.windowSeconds

/-- The centre of a bucket. -/
def centre (bucket : Nat) : R := ofNat bucket + half

variable {c : Calibrator R} {depths : List (Option R)}

/-- Every count that enters a fit is one of depths of the window, and of one at least. -/
theorem mem_fitted {count : Nat} (mem : count ∈ c.fitted depths) :
    1 ≤ count ∧ count ≤ depths.length := by
  have hmem := List.mem_of_mem_take mem
  refine ⟨Histogram.one_le_of_mem_cumulative hmem, ?_⟩
  rw [Histogram.cumulative_eq_map] at hmem
  obtain ⟨i, -, rfl⟩ := List.mem_map.mp hmem
  exact List.countP_le_length.trans (List.length_filterMap_le _ _)

private theorem points_eq
    (resolved : ∀ count ∈ c.fitted depths, isPositive (c.intensity count) = true) :
    c.points (Histogram.cumulative c.histogramBuckets depths) =
      (c.fitted depths).zipIdx.map fun p ↦ (centre p.2, ln (c.intensity p.1)) := by
  unfold points
  rw [← List.filterMap_eq_map]
  apply List.filterMap_congr
  intro p mem
  exact if_pos (resolved p.1 (List.fst_mem_of_mem_zipIdx mem))

/-- The abscissae are the centres of the buckets, one after another. -/
theorem map_fst_points
    (resolved : ∀ count ∈ c.fitted depths, isPositive (c.intensity count) = true) :
    (c.points (Histogram.cumulative c.histogramBuckets depths)).map Prod.fst =
      (List.range (c.fitted depths).length).map centre := by
  rw [points_eq resolved, List.map_map, List.range_eq_range', ← List.zipIdx_map_snd, List.map_map]
  rfl

/-- The ordinates are the logarithms of the intensities. -/
theorem map_snd_points
    (resolved : ∀ count ∈ c.fitted depths, isPositive (c.intensity count) = true) :
    (c.points (Histogram.cumulative c.histogramBuckets depths)).map Prod.snd =
      (c.fitted depths).map fun count ↦ ln (c.intensity count) := by
  rw [points_eq resolved, List.map_map]
  conv_rhs => rw [← List.zipIdx_map_fst 0 (c.fitted depths), List.map_map]
  rfl

/-- With positive intensities a window has as many points as buckets, and too few or a line through
them. -/
theorem fitWindow_eq
    (resolved : ∀ count ∈ c.fitted depths, isPositive (c.intensity count) = true) :
    c.fitWindow depths =
      if (c.fitted depths).length < 2 then
        .error (.degenerateFit (.sparseIntensity (c.fitted depths).length))
      else
        (Line.fit ((List.range (c.fitted depths).length).map centre)
          ((c.fitted depths).map fun count ↦ ln (c.intensity count))).map fun line ↦
            ⟨exp line.intercept, -line.slope, (c.fitted depths).length⟩ := by
  have hlength : (c.points (Histogram.cumulative c.histogramBuckets depths)).length =
      (c.fitted depths).length := by
    rw [points_eq resolved, List.length_map, List.length_zipIdx]
  unfold fitWindow
  simp only
  rw [map_fst_points resolved, map_snd_points resolved, hlength]
  rfl

/-- A fit needs a full window, and is one of the last window. -/
theorem fit_eq (c : Calibrator R) (depths : List (Option R)) :
    c.fit depths =
      if depths.length < c.window then
        .error (.degenerateFit (.shortHistory depths.length c.window))
      else c.fitWindow (c.lastWindow depths) := rfl

/-- What is older than the last window is of no account. -/
theorem fit_append {recent : List (Option R)} (full : recent.length = c.window)
    (older : List (Option R)) : c.fit (older ++ recent) = c.fitWindow recent := by
  have hwindow : c.lastWindow (older ++ recent) = recent := by
    unfold lastWindow
    rw [List.length_append, ← full, Nat.add_sub_cancel, List.drop_left]
  rw [fit_eq, List.length_append, if_neg (by omega), hwindow]

end MarketMaking.Calibrator
