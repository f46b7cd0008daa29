import Mathlib.Tactic.LinearCombination
import MarketMaking.Proofs.Acceptance
import MarketMaking.Proofs.Binary64.Units
import MarketMaking.Proofs.FitPoints

/-!
# When a fit succeeds

On doubles the intensities of a window are never rounded to zero, since neither the counts nor the
length of a window leave the range of machine words. So every bucket before the deepest one is a
point of the fit. The sums over the centres of up to 8192 buckets are exact, and so is their spread,
which is not zero for two centres or more. What remains to decide over a fit are the number of
samples and that of the buckets.
-/

namespace MarketMaking

open Binary64

/-! ### Intensities -/

namespace Config

variable {c : Config Float}

private theorem between_windowSeconds (accepted : c.Accepted)
    (window : c.calibrationWindow < pow2 64)
    (step : c.stepMillis < pow2 64) : Between c.windowSeconds (-10) 119 := by
  have hthousand : Between (Scalar.ofNat 1000) 9 10 := by
    have hcounted := Counted.ofNat (n := 1000) (by decide)
    refine ⟨hcounted.finite, ?_, ?_⟩ <;> rw [hcounted.value_eq] <;> norm_num
  have hmillis := Between.ofNat (k := 64) accepted.stepMillis step.le (by decide)
  have hsteps := Between.ofNat (k := 64) accepted.window_pos window.le (by decide)
  exact hsteps.mul (hmillis.div hthousand (by decide) (by decide)) (by decide) (by decide)

private theorem isPositive_intensity (accepted : c.Accepted)
    (window : c.calibrationWindow < pow2 64)
    (step : c.stepMillis < pow2 64) {count : Nat} (pos : 1 ≤ count)
    (le : count ≤ c.calibrationWindow) :
    Scalar.isPositive (c.calibrator.intensity count) = true := by
  have hcount := Between.ofNat (k := 64) pos (le.trans window.le) (by decide)
  exact (hcount.div (between_windowSeconds accepted window step) (by decide) (by decide)).isPositive

end Config

/-! ### Centres -/

namespace Calibrator

private theorem counted_centre {bucket : Nat} (small : bucket < 2 ^ 13) :
    Counted (centre bucket) (-1) (2 * bucket + 1) := by
  have hhalf : Counted Scalar.half (-1) 1 := by
    refine ⟨by decide +kernel, ?_⟩
    rw [value_half.2]
    norm_num
  have hbucket := (Counted.ofNat (n := bucket) (by omega)).rescale 1
  rw [pow_one, mul_comm] at hbucket
  exact hbucket.add hhalf (by rw [abs_of_nonneg] <;> omega) (by decide) (by decide)

private theorem sum_odd (n : Nat) :
    ((List.range n).map fun i : Nat ↦ (2 * i + 1 : ℤ)).sum = n * n := by
  induction n with
  | zero => rfl
  | succ n ih =>
    rw [List.range_succ, List.map_append, List.sum_append, ih, List.map_singleton,
      List.sum_singleton, Nat.cast_succ]
    ring

private theorem sum_odd_squares (n : Nat) :
    3 * ((List.range n).map fun i : Nat ↦ ((2 * i + 1) * (2 * i + 1) : ℤ)).sum =
      n * (4 * (n * n) - 1) := by
  induction n with
  | zero => rfl
  | succ n ih =>
    rw [List.range_succ, List.map_append, List.sum_append, mul_add, ih, List.map_singleton,
      List.sum_singleton, Nat.cast_succ]
    ring

variable {n : Nat}

private theorem counted_sum_centres (few : n ≤ 2 ^ 13) :
    Counted (Scalar.sum ((List.range n).map centre)) (-1) (n * n) := by
  have hbound : (n : ℤ) * n ≤ 2 ^ 13 * 2 ^ 13 :=
    mul_le_mul (by omega) (by omega) (by omega) (by decide)
  rw [← sum_odd]
  refine Counted.sum_of_nonneg ?_ (by omega) (by rw [sum_odd]; omega) (by decide) (by decide)
  exact fun i mem ↦ counted_centre ((List.mem_range.mp mem).trans_le few)

private theorem counted_sum_squares (few : n ≤ 2 ^ 13) :
    ∃ k : ℤ, 3 * k = n * (4 * (n * n) - 1) ∧
      Counted (Scalar.sum (((List.range n).map centre).map fun x ↦ x * x)) (-2) k := by
  have hbound : (n : ℤ) * (n * n) ≤ 2 ^ 13 * (2 ^ 13 * 2 ^ 13) :=
    mul_le_mul (by omega) (mul_le_mul (by omega) (by omega) (by omega) (by decide))
      (mul_self_nonneg _) (by decide)
  refine ⟨_, sum_odd_squares n, ?_⟩
  rw [List.map_map]
  refine Counted.sum_of_nonneg ?_ (fun i _ ↦ mul_self_nonneg _) ?_ (by decide) (by decide)
  · intro i mem
    have hi := List.mem_range.mp mem
    have hcentre := counted_centre (hi.trans_le few)
    have hsmall : (2 * i + 1 : ℤ) * (2 * i + 1) ≤ 2 ^ 14 * 2 ^ 14 :=
      mul_le_mul (by omega) (by omega) (by omega) (by decide)
    refine hcentre.mul hcentre ?_ (by decide) (by decide)
    rw [abs_of_nonneg (mul_self_nonneg _)]
    omega
  · have hclosed := sum_odd_squares n
    rw [mul_sub, mul_one, mul_left_comm] at hclosed
    omega

/-- The spread of the centres of two buckets or more, of up to 8192, is neither zero nor beyond the
limits. -/
theorem centres_accepted (two : 2 ≤ n) (few : n ≤ 2 ^ 13) :
    let xs : List Float := (List.range n).map centre
    let spread := Scalar.ofNat n * Scalar.sum (xs.map fun x ↦ x * x) -
      Scalar.sum xs * Scalar.sum xs
    ¬ (Scalar.eq spread Scalar.zero || !Scalar.isFinite spread) = true := by
  intro xs spread
  have hn : (n : ℤ) * n ≤ 2 ^ 13 * 2 ^ 13 := mul_le_mul (by omega) (by omega) (by omega) (by decide)
  have hnn : (n : ℤ) * n * (n * n) ≤ 2 ^ 26 * 2 ^ 26 :=
    mul_le_mul hn hn (mul_self_nonneg _) (by decide)
  have hfour : (2 : ℤ) * 2 ≤ n * n := mul_le_mul (by omega) (by omega) (by decide) (by omega)
  have hlarge : 2 * 2 * ((n : ℤ) * n) ≤ n * n * (n * n) :=
    mul_le_mul_of_nonneg_right hfour (mul_self_nonneg _)
  obtain ⟨k, hk, hsquares⟩ := counted_sum_squares few
  have hproduct : 3 * (n * k) = 4 * (n * n * (n * n)) - n * n := by linear_combination n * hk
  have hleft := (Counted.ofNat (n := n) (by omega)).mul hsquares
    (by rw [abs_of_nonneg] <;> omega) (by decide) (by decide)
  have hright := (counted_sum_centres few).mul (counted_sum_centres few)
    (by rw [abs_of_nonneg] <;> omega) (by decide) (by decide)
  rw [zero_add] at hleft
  have hspread : Counted spread (-2) (n * k - n * n * (n * n)) :=
    hleft.sub hright (by rw [abs_of_nonneg] <;> omega) (by decide) (by decide)
  rw [refused_iff]
  intro hrefused
  have hzero := hspread.value_eq.symm.trans (hrefused hspread.finite)
  rw [mul_eq_zero, Int.cast_eq_zero] at hzero
  rcases hzero with hcount | hunit
  · omega
  · exact absurd hunit (zpow_ne_zero _ two_ne_zero)

/-- A line is fitted to any ordinates over the centres. -/
theorem exists_line (two : 2 ≤ n) (few : n ≤ 2 ^ 13) {ys : List Float} (length : ys.length = n) :
    ∃ line, Line.fit ((List.range n).map centre) ys = .ok line := by
  unfold Line.fit
  rw [List.length_map, List.length_range, length, if_neg (not_not_intro rfl), if_neg (by omega)]
  exact ⟨_, if_neg (centres_accepted two few)⟩

private theorem value_centre {bucket : Nat} (small : bucket < 2 ^ 13) :
    value (centre bucket) = bucket + 1 / 2 := by
  rw [(counted_centre small).value_eq, zpow_neg_one]
  push_cast
  ring

end Calibrator

/-! ### Fits -/

/-- The deepest bucket that a sample is retained in; zero if no sample is. -/
def Histogram.deepest (buckets : Nat) (samples : List (Option Float)) : Nat :=
  (samples.filterMap (retainedIn? buckets)).foldl max 0

/-- What a decay owes to the samples of a window when it is fitted to the first `n` buckets: these
are the points, with all centres from one half on, and a line through them gives the decay. -/
structure Calibrator.FittedTo (c : Calibrator Float) (samples : List (Option Float)) (n : Nat)
    (decay : Decay Float) : Prop where
  centres : ((c.points (Histogram.cumulative c.histogramBuckets samples)).map Prod.fst).map value =
    (List.range n).map fun i : Nat ↦ (i : ℚ) + 1 / 2
  line : ∃ line, Line.fit
      ((c.points (Histogram.cumulative c.histogramBuckets samples)).map Prod.fst)
      ((c.points (Histogram.cumulative c.histogramBuckets samples)).map Prod.snd) = .ok line ∧
    decay = ⟨Scalar.exp line.intercept, -line.slope, n⟩

namespace Config

variable {c : Config Float}

/-- The number of buckets before the deepest one that the last window reaches, as many as fit. -/
def fitPoints (c : Config Float) (depths : List (Option Float)) : Nat :=
  min c.fitBuckets (Histogram.deepest c.histogramBuckets (c.calibrator.lastWindow depths))

private theorem length_fitted (c : Config Float) (depths : List (Option Float)) :
    (c.calibrator.fitted (c.calibrator.lastWindow depths)).length = c.fitPoints depths := by
  unfold Calibrator.fitted
  rw [List.length_take, Histogram.length_cumulative, Histogram.retained_eq]
  rfl

/-- A history without a whole window is too short. -/
theorem fit_of_short {depths : List (Option Float)} (short : depths.length < c.calibrationWindow) :
    c.calibrator.fit depths =
      .error (.degenerateFit (.shortHistory depths.length c.calibrationWindow)) :=
  if_pos short

section Full

variable (accepted : c.Accepted) (window : c.calibrationWindow < pow2 64)
  (step : c.stepMillis < pow2 64) {depths : List (Option Float)}
  (full : c.calibrationWindow ≤ depths.length)

include accepted window step full

private theorem isPositive_fitted :
    ∀ count ∈ c.calibrator.fitted (c.calibrator.lastWindow depths),
      Scalar.isPositive (c.calibrator.intensity count) = true := by
  intro count mem
  obtain ⟨hpos, hle⟩ := Calibrator.mem_fitted mem
  have hlength : (c.calibrator.lastWindow depths).length = c.calibrationWindow := by
    unfold Calibrator.lastWindow
    rw [List.length_drop]
    exact Nat.sub_sub_self full
  exact isPositive_intensity accepted window step hpos (hlength ▸ hle)

/-- A whole window is fitted, unless there are too few buckets. -/
theorem fit_of_full : c.calibrator.fit depths =
    if c.fitPoints depths < 2 then
      .error (.degenerateFit (.sparseIntensity (c.fitPoints depths)))
    else
      (Line.fit ((List.range (c.fitPoints depths)).map Calibrator.centre)
        ((c.calibrator.fitted (c.calibrator.lastWindow depths)).map fun count ↦
          Scalar.ln (c.calibrator.intensity count))).map fun line ↦
            ⟨Scalar.exp line.intercept, -line.slope, c.fitPoints depths⟩ := by
  rw [Calibrator.fit_eq, ← length_fitted,
    ← Calibrator.fitWindow_eq (isPositive_fitted accepted window step full)]
  exact if_neg full.not_gt

/-- Two buckets or more have a decay fitted to them. -/
theorem exists_fit (few : c.fitBuckets ≤ 8192) (two : 2 ≤ c.fitPoints depths) :
    ∃ decay, c.calibrator.fit depths = .ok decay ∧
      c.calibrator.FittedTo (c.calibrator.lastWindow depths) (c.fitPoints depths) decay := by
  have hresolved := isPositive_fitted accepted window step full
  have hsmall : c.fitPoints depths ≤ 2 ^ 13 := (Nat.min_le_left _ _).trans few
  have hfst := Calibrator.map_fst_points hresolved
  have hsnd := Calibrator.map_snd_points hresolved
  rw [length_fitted] at hfst
  have hlength : ((c.calibrator.fitted (c.calibrator.lastWindow depths)).map fun count ↦
      Scalar.ln (c.calibrator.intensity count)).length = c.fitPoints depths := by
    rw [List.length_map, length_fitted]
  obtain ⟨line, hline⟩ := Calibrator.exists_line two hsmall hlength
  refine ⟨⟨Scalar.exp line.intercept, -line.slope, c.fitPoints depths⟩, ?_, ?_, line, ?_, rfl⟩
  · rw [fit_of_full accepted window step full, if_neg two.not_gt, hline]
    rfl
  · rw [hfst, List.map_map]
    apply List.map_congr_left
    intro bucket mem
    exact Calibrator.value_centre ((List.mem_range.mp mem).trans_le hsmall)
  · rw [hfst, hsnd, hline]

end Full

/-- Where at most 8192 buckets enter a fit, it succeeds exactly if the history holds a whole window
and two buckets at least lie before the deepest one that is reached. Then these are its points, as
many as fit. Without a whole window the history is too short, and otherwise there are too few
buckets. What is older than the window is of no account beyond the length of the history. The length
of a window and that of a step are machine words. -/
theorem fit_criterion (accepted : c.Accepted) (few : c.fitBuckets ≤ 8192)
    (window : c.calibrationWindow < pow2 64) (step : c.stepMillis < pow2 64)
    (depths : List (Option Float)) :
    ((∃ decay, c.calibrator.fit depths = .ok decay) ↔
      c.calibrationWindow ≤ depths.length ∧ 2 ≤ c.fitPoints depths) ∧
      (∀ decay, c.calibrator.fit depths = .ok decay →
        c.calibrator.FittedTo (c.calibrator.lastWindow depths) (c.fitPoints depths) decay) ∧
      (∀ e, c.calibrator.fit depths = .error e → e = .degenerateFit
        (if depths.length < c.calibrationWindow then
          .shortHistory depths.length c.calibrationWindow
        else .sparseIntensity (c.fitPoints depths))) ∧
      ∀ older older' recent : List (Option Float), recent.length = c.calibrationWindow →
        c.calibrator.fit (older ++ recent) = c.calibrator.fit (older' ++ recent) := by
  have holder : ∀ older older' recent : List (Option Float), recent.length = c.calibrationWindow →
      c.calibrator.fit (older ++ recent) = c.calibrator.fit (older' ++ recent) :=
    fun older older' recent full ↦
      (Calibrator.fit_append full older).trans (Calibrator.fit_append full older').symm
  rcases lt_or_ge depths.length c.calibrationWindow with hshort | hfull
  · rw [fit_of_short hshort, if_pos hshort]
    exact ⟨iff_of_false (nofun) fun h ↦ h.1.not_gt hshort, nofun, fun _ h ↦ by cases h; rfl, holder⟩
  rcases lt_or_ge (c.fitPoints depths) 2 with hsparse | htwo
  · rw [fit_of_full accepted window step hfull, if_pos hsparse, if_neg hfull.not_gt]
    exact ⟨iff_of_false (nofun) fun h ↦ h.2.not_gt hsparse, nofun, fun _ h ↦ by cases h; rfl,
      holder⟩
  · obtain ⟨decay, hfit, hfitted⟩ := exists_fit accepted window step hfull few htwo
    rw [hfit]
    exact ⟨iff_of_true ⟨_, rfl⟩ ⟨hfull, htwo⟩, fun _ h ↦ by cases h; exact hfitted, nofun, holder⟩

/-- A window of two steps of which one reached five buckets beyond the first and the other three. -/
theorem fit_criterion_brief :
    let c := Config.brief
    let depths : List (Option Float) := [none, some 3, some 2]
    c.Accepted ∧ c.fitBuckets ≤ 8192 ∧ c.calibrationWindow < pow2 64 ∧ c.stepMillis < pow2 64 ∧
      ∃ decay, c.calibrator.fit depths = .ok decay ∧ decay.points = 5 := by
  intro c depths
  have haccepted : c.Accepted := (defect?_eq_none_iff_accepted c).mp (by decide +kernel)
  have hpoints : c.fitPoints depths = 5 := by decide +kernel
  obtain ⟨hok, hfitted, -⟩ :=
    fit_criterion haccepted (by decide) (by decide) (by decide) depths
  obtain ⟨decay, hfit⟩ := hok.mpr ⟨by decide, by rw [hpoints]; decide⟩
  obtain ⟨line, -, rfl⟩ := (hfitted decay hfit).line
  exact ⟨haccepted, by decide, by decide, by decide, _, hfit, hpoints⟩

end Config

end MarketMaking
