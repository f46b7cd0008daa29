import Mathlib.Tactic.Linarith
import MarketMaking.Proofs.Acceptance
import MarketMaking.Proofs.FitPoints
import MarketMaking.Proofs.LeastSquares
import MarketMaking.Quote

/-!
# The sign of a fitted decay

Counts do not rise from one bucket to the next. So over exact numbers, with any increasing function
for the logarithm, the line fitted to the logarithms of their intensities does not rise either: the
decay that is read off its slope is not negative. It is zero only if all counts are equal, and then
alone no quote can be computed from it.
-/

namespace MarketMaking

open Exact

variable {K : Type} [Field K] [LinearOrder K] [Elementary K]

/-! ### Falling counts -/

/-- Are all counts equal? -/
def Flat (counts : List Nat) : Prop := ∀ count ∈ counts, ∀ count' ∈ counts, count = count'

instance (counts : List Nat) : Decidable (Flat counts) :=
  inferInstanceAs (Decidable (∀ count ∈ counts, ∀ count' ∈ counts, count = count'))

/-- The point of a count with its bucket, over a window of `w` seconds. -/
def countPoint (w : K) (p : Nat × Nat) : K × K := (p.2 + 1 / 2, Elementary.ln (p.1 / w))

/-- The points of the counts of all buckets. -/
def countPoints (w : K) (counts : List Nat) : List (K × K) := counts.zipIdx.map (countPoint w)

private theorem pairwise_zipIdx {counts : List Nat} (falling : counts.Pairwise (· ≥ ·))
    (positive : ∀ count ∈ counts, 1 ≤ count) :
    counts.zipIdx.Pairwise fun p q ↦ 1 ≤ p.1 ∧ 1 ≤ q.1 ∧ p.2 < q.2 ∧ q.1 ≤ p.1 := by
  rw [List.pairwise_iff_getElem] at falling ⊢
  intro i j hi hj lt
  rw [List.length_zipIdx] at hi hj
  simp only [List.getElem_zipIdx, Nat.zero_add]
  exact ⟨positive _ (List.getElem_mem hi), positive _ (List.getElem_mem hj), lt,
    falling i j hi hj lt⟩

section Counts

variable [IsStrictOrderedRing K] (increasing : StrictMonoOn (Elementary.ln : K → K) (Set.Ioi 0))
  {w : K} (pos : 0 < w)

include increasing pos

private theorem ln_div_le_iff {m n : Nat} (hm : 1 ≤ m) (hn : 1 ≤ n) :
    Elementary.ln ((m : K) / w) ≤ Elementary.ln ((n : K) / w) ↔ m ≤ n := by
  rw [increasing.le_iff_le (div_pos (Nat.cast_pos.mpr hm) pos) (div_pos (Nat.cast_pos.mpr hn) pos),
    div_le_div_iff_of_pos_right pos, Nat.cast_le]

private theorem countPoint_falls {p q : Nat × Nat} (hp : 1 ≤ p.1) (hq : 1 ≤ q.1)
    (behind : p.2 < q.2) (smaller : q.1 ≤ p.1) :
    0 ≤ ((countPoint w p).1 - (countPoint w q).1) * (-(countPoint w p).2 - -(countPoint w q).2) ∧
      (((countPoint w p).1 - (countPoint w q).1) * (-(countPoint w p).2 - -(countPoint w q).2) = 0 ↔
        p.1 = q.1) := by
  have habscissa : (countPoint w p).1 - (countPoint w q).1 < 0 :=
    sub_neg.mpr (add_lt_add_left (Nat.cast_lt.mpr behind) _)
  have hordinate : (countPoint w q).2 - (countPoint w p).2 ≤ 0 :=
    sub_nonpos.mpr ((ln_div_le_iff increasing pos hq hp).mpr smaller)
  rw [neg_sub_neg]
  refine ⟨mul_nonneg_of_nonpos_of_nonpos habscissa.le hordinate, ?_⟩
  rw [mul_eq_zero, or_iff_right habscissa.ne, sub_eq_zero, le_antisymm_iff]
  unfold countPoint
  simp only
  rw [ln_div_le_iff increasing pos hq hp, ln_div_le_iff increasing pos hp hq]
  omega

/-- With falling counts the moment of their points is not positive, and it is zero only if they are
flat. -/
theorem coMoment_countPoints {counts : List Nat} (falling : counts.Pairwise (· ≥ ·))
    (positive : ∀ count ∈ counts, 1 ≤ count) :
    coMoment (countPoints w counts) ≤ 0 ∧
      (coMoment (countPoints w counts) = 0 ↔ Flat counts) := by
  have hpairs := pairwise_zipIdx falling positive
  have hmap : (countPoints w counts).map (fun p ↦ (p.1, -p.2)) =
      counts.zipIdx.map fun p ↦ ((countPoint w p).1, -(countPoint w p).2) := List.map_map
  have hconcordant : Concordant ((countPoints w counts).map fun p ↦ (p.1, -p.2)) := by
    rw [hmap, Concordant, List.pairwise_map]
    exact hpairs.imp fun ⟨hp, hq, behind, smaller⟩ ↦
      (countPoint_falls increasing pos hp hq behind smaller).1
  have hnonneg := coMoment_nonneg hconcordant
  have hzero := coMoment_eq_zero_iff hconcordant
  rw [coMoment_map_neg] at hnonneg hzero
  refine ⟨neg_nonneg.mp hnonneg, ?_⟩
  have hflat : counts.zipIdx.Pairwise (fun p q ↦ p.1 = q.1) ↔ Flat counts := by
    rw [← List.pairwise_map (R := fun m n ↦ m = n), List.zipIdx_map_fst]
    exact pairwise_eq_iff
  rw [← neg_eq_zero, hzero, ← hflat, hmap, List.pairwise_map]
  constructor
  · exact fun zero ↦ (hpairs.and zero).imp fun ⟨⟨hp, hq, behind, smaller⟩, h⟩ ↦
      (countPoint_falls increasing pos hp hq behind smaller).2.mp h
  · exact fun equal ↦ (hpairs.and equal).imp fun ⟨⟨hp, hq, behind, smaller⟩, h⟩ ↦
      (countPoint_falls increasing pos hp hq behind smaller).2.mpr h

/-- So is the slope of the line through them, if they have a spread. -/
theorem slope_countPoints {counts : List Nat} (falling : counts.Pairwise (· ≥ ·))
    (positive : ∀ count ∈ counts, 1 ≤ count)
    (spreads : spread ((countPoints w counts).map Prod.fst) ≠ 0) :
    (Line.normal (countPoints w counts)).slope ≤ 0 ∧
      ((Line.normal (countPoints w counts)).slope = 0 ↔ Flat counts) := by
  obtain ⟨hnonpos, hzero⟩ := coMoment_countPoints increasing pos falling positive
  refine ⟨div_nonpos_of_nonpos_of_nonneg hnonpos (spread_nonneg _), ?_⟩
  exact (div_eq_zero_iff.trans (or_iff_left spreads)).trans hzero

end Counts

/-! ### The window -/

section Window

variable [IsStrictOrderedRing K] {c : Config (Exact K)}

private theorem Config.exists_windowSeconds (accepted : c.Accepted) :
    ∃ w : K, c.windowSeconds = number w ∧ 0 < w := by
  have hthousand : (0 : K) < (1000 : Nat) := Nat.cast_pos.mpr (by decide)
  refine ⟨c.calibrationWindow * (c.stepMillis / (1000 : Nat)), ?_, ?_⟩
  · unfold windowSeconds stepSeconds
    rw [ofNat_eq, ofNat_eq, ofNat_eq, number_div _ hthousand.ne', number_mul]
  · exact mul_pos (Nat.cast_pos.mpr accepted.window_pos)
      (div_pos (Nat.cast_pos.mpr accepted.stepMillis) hthousand)

/-- The points of a fit over exact numbers, when it has a line. -/
theorem Config.fit_eq_ok (accepted : c.Accepted) {depths : List (Option (Exact K))}
    {decay : Decay (Exact K)} (fit : c.calibrator.fit depths = .ok decay) :
    ∃ w : K, 0 < w ∧
      spread ((countPoints w (c.calibrator.fitted (c.calibrator.lastWindow depths))).map Prod.fst) ≠
        0 ∧
      decay =
        let line := Line.normal
          (countPoints w (c.calibrator.fitted (c.calibrator.lastWindow depths)))
        ⟨number (Elementary.exp line.intercept), number (-line.slope),
          (c.calibrator.fitted (c.calibrator.lastWindow depths)).length⟩ := by
  obtain ⟨w, hw, hpos⟩ := exists_windowSeconds accepted
  have hintensity (count : Nat) : c.calibrator.intensity count = number (count / w) := by
    have hseconds : c.calibrator.windowSeconds = number w := hw
    unfold Calibrator.intensity
    rw [hseconds, ofNat_eq, number_div _ hpos.ne']
  have hcentre (bucket : Nat) : (Calibrator.centre bucket : Exact K) =
      number ((bucket : K) + 1 / 2) := by
    unfold Calibrator.centre
    rw [ofNat_eq, half_eq, number_add]
  have hresolved : ∀ count ∈ c.calibrator.fitted (c.calibrator.lastWindow depths),
      Scalar.isPositive (c.calibrator.intensity count) = true := fun count mem ↦ by
    rw [hintensity, isPositive_number_iff]
    exact div_pos (Nat.cast_pos.mpr (Calibrator.mem_fitted mem).1) hpos
  rw [Calibrator.fit_eq, Calibrator.fitWindow_eq hresolved] at fit
  generalize c.calibrator.fitted (c.calibrator.lastWindow depths) = counts at fit
  have hfst : (List.range counts.length).map Calibrator.centre =
      numbers ((countPoints w counts).map Prod.fst) := by
    unfold countPoints numbers
    rw [List.range_eq_range', ← List.zipIdx_map_snd, List.map_map, List.map_map, List.map_map]
    exact List.map_congr_left fun p _ ↦ hcentre p.2
  have hsnd : (counts.map fun count ↦ Scalar.ln (c.calibrator.intensity count)) =
      numbers ((countPoints w counts).map Prod.snd) := by
    unfold countPoints numbers
    conv_lhs => rw [← List.zipIdx_map_fst 0 counts]
    rw [List.map_map, List.map_map, List.map_map]
    exact List.map_congr_left fun p _ ↦ congrArg Scalar.ln (hintensity p.1)
  have hlength : (countPoints w counts).length = counts.length := by
    rw [countPoints, List.length_map, List.length_zipIdx]
  refine ⟨w, hpos, ?_⟩
  split at fit
  · cases fit
  split at fit
  · cases fit
  next htwo =>
    rw [hfst, hsnd, Line.fit_numbers _ (hlength ▸ not_lt.mp htwo)] at fit
    split at fit
    · cases fit
    next hspread =>
      cases fit
      exact ⟨hspread, rfl⟩

end Window

/-! ### The decay -/

/-- Over exact numbers no coefficients are computed from a decay exactly if one of its parameters is
not positive. -/
theorem Coefficients.ofDecay_number_iff (params : RiskParams (Exact K)) {a k : K} :
    (∃ e, ofDecay params (number a) (number k) = .error e) ↔ ¬ (0 < a ∧ 0 < k) := by
  unfold ofDecay
  simp only [isFinite_number, Bool.true_and, Bool.and_eq_true, isPositive_number_iff]
  split
  · next h =>
    refine iff_of_false ?_ (not_not_intro h)
    rintro ⟨e, herror⟩
    cases herror
  · next h => exact iff_of_true ⟨_, rfl⟩ h

variable [IsStrictOrderedRing K]

/-- Over exact numbers, with any increasing logarithm and any positive exponential, a fitted decay
has a positive scale and a rate that is not negative. The rate is zero only if all counts of the fit
are equal, and then alone no coefficients can be computed from the decay. -/
theorem Config.fit_decay_sign {c : Config (Exact K)} (accepted : c.Accepted)
    (increasing : StrictMonoOn (Elementary.ln : K → K) (Set.Ioi 0))
    (positive : ∀ x : K, 0 < Elementary.exp x) {depths : List (Option (Exact K))}
    {decay : Decay (Exact K)} (fit : c.calibrator.fit depths = .ok decay) :
    let counts := c.calibrator.fitted (c.calibrator.lastWindow depths)
    decay.points = counts.length ∧
      (∃ a k : K, decay.a = number a ∧ decay.k = number k ∧ 0 < a ∧ 0 ≤ k ∧
        (k = 0 ↔ Flat counts)) ∧
      ∀ params, (∃ e, Coefficients.ofDecay params decay.a decay.k = .error e) ↔ Flat counts := by
  intro counts
  obtain ⟨w, hpos, hspread, rfl⟩ := fit_eq_ok accepted fit
  have hfalling : counts.Pairwise (· ≥ ·) :=
    (Histogram.pairwise_cumulative _ _).sublist (List.take_sublist _ _)
  obtain ⟨hslope, hzero⟩ := slope_countPoints increasing hpos hfalling
    (fun _ mem ↦ (Calibrator.mem_fitted mem).1) hspread
  have hrate : 0 ≤ -(Line.normal (countPoints w counts)).slope := neg_nonneg.mpr hslope
  have hflat : -(Line.normal (countPoints w counts)).slope = 0 ↔ Flat counts :=
    neg_eq_zero.trans hzero
  refine ⟨rfl, ⟨_, _, rfl, rfl, positive _, hrate, hflat⟩, fun params ↦ ?_⟩
  rw [Coefficients.ofDecay_number_iff, and_iff_right (positive _), ← hflat, not_lt]
  exact ⟨fun hle ↦ le_antisymm hle hrate, fun heq ↦ heq.le⟩

/-- Three arrivals in the buckets 1, 2 and 3 are counted 3, 2 and 1 times. -/
theorem Config.fit_decay_sign_falling :
    letI := Elementary.coarse
    let depths := [some (number 1), some (number (3 / 2)), some (number 2)]
    let decay : Decay (Exact ℚ) := ⟨number (7 / 6), number (1 / 3), 3⟩
    brisk.Accepted ∧ StrictMonoOn (Elementary.ln : ℚ → ℚ) (Set.Ioi 0) ∧
      (∀ x : ℚ, 0 < Elementary.exp x) ∧ brisk.calibrator.fit depths = .ok decay ∧
      ∀ params, ¬ ∃ e, Coefficients.ofDecay params decay.a decay.k = .error e := by
  let _ := Elementary.coarse
  intro depths decay
  have haccepted : brisk.Accepted :=
    (defect?_eq_none_iff_accepted _).mp (by decide +kernel)
  have hincreasing : StrictMonoOn (Elementary.ln : ℚ → ℚ) (Set.Ioi 0) :=
    fun x _ y _ lt ↦ sub_lt_sub_right lt 1
  have hpositive (x : ℚ) : 0 < Elementary.exp x := by
    change 0 < if 0 ≤ x then 1 + x else 1 / (1 - x)
    split
    · linarith
    · next h => exact one_div_pos.mpr (by linarith)
  have hparts : (brisk.calibrator.fit depths).toOption.map (fun d ↦ (d.a, d.k, d.points)) =
      some (decay.a, decay.k, decay.points) := by
    decide +kernel
  have hfit : brisk.calibrator.fit depths = .ok decay := by
    cases hfit : brisk.calibrator.fit depths with
    | error e =>
      rw [hfit] at hparts
      cases hparts
    | ok d =>
      rw [hfit] at hparts
      cases d
      cases hparts
      rfl
  have hsteep : ¬ Flat (brisk.calibrator.fitted (brisk.calibrator.lastWindow depths)) := by
    decide +kernel
  exact ⟨haccepted, hincreasing, hpositive, hfit, fun params ↦
    mt ((fit_decay_sign haccepted hincreasing hpositive hfit).2.2 params).mp hsteep⟩

end MarketMaking
