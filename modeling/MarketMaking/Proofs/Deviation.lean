import Mathlib.Data.List.ReduceOption
import Mathlib.Tactic.FieldSimp
import MarketMaking.Estimation.Volatility
import MarketMaking.Proofs.Binary64.Finite
import MarketMaking.Proofs.Binary64.Monotone
import MarketMaking.Proofs.LeastSquares

/-!
# The deviation of the changes in a window

The volatility is estimated in one pass over the changes of the window that are present and finite.
Over exact numbers the pass keeps three sums: with every sample it has the number of samples, their
sum, and their spread divided by their number. So what the root is taken of is the mean of the
squared distances from the mean. On doubles the estimate is a product of a root with a positive
factor: it is not negative, and there is none only where the product is out of range.
-/

namespace MarketMaking.Volatility

open Exact

/-! ### Samples -/

section Samples

variable {R : Type} [Scalar R]

/-- The changes that count: those among the last `window` ones that are present and finite. -/
def samples (window : Nat) (changes : List (Option R)) : List R :=
  (changes.drop (changes.length - min window changes.length)).reduceOption.filter
    fun change ↦ Scalar.isFinite change

private theorem usable_eq_filter (changes : List (Option R)) :
    usable changes = changes.reduceOption.filter fun change ↦ Scalar.isFinite change := by
  unfold usable
  induction changes with
  | nil => rfl
  | cons change changes ih =>
    cases change with
    | none => simpa using ih
    | some x => by_cases hx : Scalar.isFinite x = true <;> simp_all [Scalar.finite?]

private theorem estimate_eq (window : Nat) (normalization : R) (changes : List (Option R)) :
    estimate window normalization changes =
      if (samples window changes).isEmpty then none
      else Scalar.finite? (Scalar.sqrt (variance (samples window changes)) * normalization) := by
  have hwindow : changes.length - window = changes.length - min window changes.length := by omega
  rw [estimate, usable_eq_filter, hwindow, ← samples]
  cases samples window changes <;> rfl

/-- Changes before the window are no samples. -/
theorem samples_append (before : List (Option R)) {window : Nat} {changes : List (Option R)}
    (full : window ≤ changes.length) :
    samples window (before ++ changes) = samples window changes := by
  have hstart : (before ++ changes).length - min window (before ++ changes).length =
      before.length + (changes.length - min window changes.length) := by
    simp only [List.length_append]
    omega
  rw [samples, hstart, ← List.drop_drop, List.drop_left, samples]

end Samples

/-! ### The one pass over exact numbers -/

section Exact

variable {K : Type} [Field K]

/-- The mean of numbers. -/
def mean (xs : List K) : K := xs.sum / xs.length

/-- The mean of the squared distances from the mean. -/
def meanSquare (xs : List K) : K := (xs.map fun x ↦ (x - mean xs) ^ 2).sum / xs.length

private theorem spread_eq (xs : List K) :
    spread xs = xs.length * (xs.map fun x ↦ x * x).sum - xs.sum * xs.sum := by
  simp [spread, coMoment, Function.comp_def]

variable [LinearOrder K] [IsStrictOrderedRing K]

private theorem length_ne_zero_of_ne_nil {xs : List K} (ne : xs ≠ []) : (xs.length : K) ≠ 0 := by
  simpa using ne

omit [LinearOrder K] [IsStrictOrderedRing K] in
private theorem sum_sq_sub (m : K) (xs : List K) : (xs.map fun x ↦ (x - m) ^ 2).sum =
    (xs.map fun x ↦ x * x).sum - 2 * m * xs.sum + xs.length * m ^ 2 := by
  induction xs with
  | nil => simp
  | cons x xs ih =>
    simp only [List.map_cons, List.sum_cons, List.length_cons, ih, Nat.cast_succ]
    ring

/-- The squared distances from the mean, by the spread. -/
theorem meanSquare_eq {xs : List K} (ne : xs ≠ []) :
    meanSquare xs = spread xs / xs.length / xs.length := by
  have hlength := length_ne_zero_of_ne_nil ne
  rw [meanSquare, sum_sq_sub, spread_eq]
  unfold mean
  field_simp
  ring

variable [Elementary K]

/-- What the pass keeps of the numbers that it has seen. -/
def Deviation.of (xs : List K) : Deviation (Exact K) :=
  ⟨number xs.length, number xs.sum, number (spread xs / xs.length)⟩

private theorem Deviation.add_of {xs : List K} (ne : xs ≠ []) (x : K) :
    (Deviation.of xs).add (number x) = Deviation.of (xs ++ [x]) := by
  have hlength := length_ne_zero_of_ne_nil ne
  have hnext : (xs.length : K) + 1 ≠ 0 := by exact_mod_cast Nat.succ_ne_zero xs.length
  have hdivisor : ((xs.length : K) + 1) * xs.length ≠ 0 := mul_ne_zero hnext hlength
  have hone : (Scalar.one : Exact K) = number 1 := by simp [Scalar.one]
  simp only [Deviation.add, Deviation.of, hone, number_add, number_mul, number_sub,
    add_sub_cancel_right, number_div _ hdivisor, List.length_append, List.length_singleton,
    Nat.cast_add, Nat.cast_one, List.sum_append, List.sum_singleton, Deviation.mk.injEq,
    number.injEq, true_and, spread_eq, List.map_append, List.map_singleton]
  field_simp
  ring

private theorem Deviation.foldl_of {xs : List K} (ne : xs ≠ []) (ys : List K) :
    (numbers ys).foldl Deviation.add (Deviation.of xs) = Deviation.of (xs ++ ys) := by
  induction ys generalizing xs with
  | nil => simp [numbers]
  | cons y ys ih =>
    have hstep := ih (show xs ++ [y] ≠ [] by simp)
    rw [← Deviation.add_of ne] at hstep
    simpa [numbers] using hstep

/-- The variance of exact numbers is the mean of the squared distances from their mean. -/
theorem variance_numbers {xs : List K} (ne : xs ≠ []) :
    variance (numbers xs) = number (meanSquare xs) := by
  cases xs with
  | nil => exact absurd rfl ne
  | cons x xs =>
    have hstart : (⟨Scalar.one, number x, Scalar.zero⟩ : Deviation (Exact K)) = .of [x] := by
      simp [Deviation.of, Scalar.one, zero_eq, spread_eq]
    have hlength := length_ne_zero_of_ne_nil ne
    change (((numbers xs).foldl Deviation.add ⟨Scalar.one, number x, Scalar.zero⟩).squares /
      ((numbers xs).foldl Deviation.add ⟨Scalar.one, number x, Scalar.zero⟩).count) = _
    rw [hstart, Deviation.foldl_of (by simp), List.singleton_append, meanSquare_eq ne]
    exact number_div _ hlength

omit [LinearOrder K] [IsStrictOrderedRing K] [Elementary K] in
/-- The order of numbers does not matter to their deviation. -/
theorem meanSquare_perm {xs ys : List K} (perm : xs.Perm ys) : meanSquare xs = meanSquare ys := by
  have hmean : mean xs = mean ys := by rw [mean, mean, perm.sum_eq, perm.length_eq]
  rw [meanSquare, meanSquare, hmean, perm.length_eq, (perm.map _).sum_eq]

omit [Elementary K] in
/-- Moving all numbers by the same distance does not matter to their deviation. -/
theorem meanSquare_map_add (xs : List K) (c : K) :
    meanSquare (xs.map (· + c)) = meanSquare xs := by
  rcases eq_or_ne xs [] with rfl | ne
  · rfl
  · have hlength := length_ne_zero_of_ne_nil ne
    have hmean : mean (xs.map (· + c)) = mean xs + c := by
      simp only [mean, List.sum_map_add, List.map_id', List.map_const', List.sum_replicate,
        nsmul_eq_mul, List.length_map]
      field_simp
    simp only [meanSquare, hmean, List.map_map, Function.comp_def, add_sub_add_right_eq_sub,
      List.length_map]

omit [Elementary K] in
/-- The mean square is not negative, and is zero only for equal numbers. -/
theorem meanSquare_nonneg_and_eq_zero_iff {xs : List K} (ne : xs ≠ []) :
    0 ≤ meanSquare xs ∧ (meanSquare xs = 0 ↔ ∀ x ∈ xs, ∀ y ∈ xs, x = y) := by
  have hlength := length_ne_zero_of_ne_nil ne
  have hnonneg : (0 : K) ≤ xs.length := Nat.cast_nonneg _
  rw [meanSquare_eq ne, ← spread_eq_zero_iff]
  refine ⟨div_nonneg (div_nonneg (spread_nonneg xs) hnonneg) hnonneg, ?_⟩
  simp [hlength]

omit [IsStrictOrderedRing K] in
private theorem exists_samples_eq_numbers (window : Nat) (changes : List (Option (Exact K))) :
    ∃ xs : List K, samples window changes = numbers xs := by
  unfold samples
  generalize (changes.drop _).reduceOption = known
  induction known with
  | nil => exact ⟨[], rfl⟩
  | cons x known ih =>
    obtain ⟨xs, hxs⟩ := ih
    cases x with
    | number x => exact ⟨x :: xs, by simp [hxs, numbers]⟩
    | unknown => exact ⟨xs, hxs⟩

end Exact

/-! ### The estimate -/

open Binary64 in
/-- An estimate on doubles is a root times the factor, and with a positive factor it is a finite
number that is not negative. -/
theorem estimate_of_positive {window : Nat} {normalization : Float}
    (positive : Scalar.isPositive normalization = true) {changes : List (Option Float)}
    {sigma : Float} (estimated : estimate window normalization changes = some sigma) :
    sigma = Scalar.sqrt (variance (samples window changes)) * normalization ∧
      Scalar.isFinite sigma = true ∧ Scalar.le Scalar.zero sigma = true := by
  rw [estimate_eq] at estimated
  split at estimated
  · cases estimated
  unfold Scalar.finite? at estimated
  split at estimated
  · next hfinite =>
    obtain rfl := Option.some_inj.mp estimated
    obtain ⟨hroot, hfactor⟩ := isFinite_of_isFinite_mul hfinite
    obtain ⟨hknown, hvalue⟩ := value_mul hroot hfactor
    refine ⟨rfl, hfinite, zero_le_iff.mpr ⟨hknown, ?_⟩⟩
    have hnonneg := mul_nonneg (value_sqrt_nonneg (variance (samples window changes)))
      (Binary64.isPositive_iff.mp positive).2.le
    exact hvalue ▸ nearest_nonneg hnonneg
  · cases estimated

variable {K : Type} [Field K] [LinearOrder K] [IsStrictOrderedRing K] [Elementary K]

/-- An estimate depends on the samples in the window only, and there is none without a sample.

Over exact numbers the root is taken of the mean of the squared distances of the samples from their
mean. This mean square is not negative, it is zero only for equal samples, and it is the same for
samples in another order and for samples that are all moved by the same distance.

On doubles, with a positive factor, there is no estimate only where there is no sample or where the
product with the factor is out of range, and an estimate is finite and not negative. -/
theorem estimate_deviation (window : Nat) :
    (∀ (R : Type) [Scalar R] (normalization : R) (changes changes' : List (Option R)),
      samples window changes' = samples window changes →
        estimate window normalization changes' = estimate window normalization changes) ∧
    (∀ (R : Type) [Scalar R] (before changes : List (Option R)), window ≤ changes.length →
      samples window (before ++ changes) = samples window changes) ∧
    (∀ (normalization : K) (changes : List (Option (Exact K))),
      ∃ xs : List K, samples window changes = numbers xs ∧
        (xs = [] → estimate window (number normalization) changes = none) ∧
        (xs ≠ [] →
          variance (numbers xs) = number (meanSquare xs) ∧
          estimate window (number normalization) changes =
            some (number (Elementary.sqrt (meanSquare xs) * normalization)) ∧
          0 ≤ meanSquare xs ∧ (meanSquare xs = 0 ↔ ∀ x ∈ xs, ∀ y ∈ xs, x = y) ∧
          (∀ ys : List K, ys.Perm xs → variance (numbers ys) = variance (numbers xs)) ∧
          ∀ c : K, variance (numbers (xs.map (· + c))) = variance (numbers xs))) ∧
    ∀ (normalization : Float) (changes : List (Option Float)),
      Scalar.isPositive normalization = true →
        (estimate window normalization changes = none ↔ samples window changes = [] ∨
          Scalar.isFinite (Scalar.sqrt (variance (samples window changes)) * normalization) =
            false) ∧
        ∀ sigma, estimate window normalization changes = some sigma →
          sigma = Scalar.sqrt (variance (samples window changes)) * normalization ∧
            Scalar.isFinite sigma = true ∧ Scalar.le Scalar.zero sigma = true := by
  refine ⟨?_, fun R _ before changes full ↦ samples_append before full, ?_, ?_⟩
  · intro R _ normalization changes changes' same
    rw [estimate_eq, estimate_eq, same]
  · intro normalization changes
    obtain ⟨xs, hxs⟩ := exists_samples_eq_numbers window changes
    have hestimate := estimate_eq window (number normalization) changes
    rw [hxs] at hestimate
    refine ⟨xs, hxs, ?_, fun ne ↦ ?_⟩
    · rintro rfl
      exact hestimate
    · have hvariance := variance_numbers ne
      obtain ⟨hnonneg, hzero⟩ := meanSquare_nonneg_and_eq_zero_iff ne
      refine ⟨hvariance, ?_, hnonneg, hzero, fun ys perm ↦ ?_, fun c ↦ ?_⟩
      · rw [hestimate, hvariance, if_neg (by simpa [numbers] using ne)]
        rfl
      · have hys : ys ≠ [] := by
          rintro rfl
          exact ne perm.nil_eq.symm
        rw [hvariance, variance_numbers hys, meanSquare_perm perm]
      · rw [hvariance, variance_numbers (by simpa using ne), meanSquare_map_add]
  · intro normalization changes positive
    refine ⟨?_, fun sigma estimated ↦ estimate_of_positive positive estimated⟩
    rw [estimate_eq]
    by_cases hnone : samples window changes = []
    · simp [hnone]
    · simp [hnone, Scalar.finite?]

/-- A window of three changes, one of which is missing, behind a change that does not count. -/
theorem estimate_deviation_of_two :
    letI := Elementary.coarse
    let exact : List (Option (Exact ℚ)) :=
      [some (number 100), some (number (1 / 2)), none, some (number (-1 / 2))]
    let changes : List (Option Float) := [some 100, some 0.5, none, some (-0.5)]
    samples 3 exact = numbers [1 / 2, -1 / 2] ∧
      estimate 3 (number 2) exact = some (number (meanSquare [1 / 2, -1 / 2] * 2)) ∧
      Scalar.isPositive (2 : Float) = true ∧
      ∃ sigma, estimate 3 2 changes = some sigma ∧ sigma.toBits = (1 : Float).toBits ∧
        Scalar.isFinite sigma = true ∧ Scalar.le Scalar.zero sigma = true := by
  let _ := Elementary.coarse
  intro exact changes
  have hpositive : Scalar.isPositive (2 : Float) = true := by decide +kernel
  obtain ⟨-, -, hexact, hdouble⟩ := estimate_deviation (K := ℚ) 3
  have hsamples : samples 3 exact = numbers [1 / 2, -1 / 2] := rfl
  refine ⟨hsamples, ?_, hpositive, ?_⟩
  · obtain ⟨xs, hxs, -, hsome⟩ := hexact 2 exact
    obtain rfl : [1 / 2, -1 / 2] = xs :=
      List.map_injective_iff.mpr (fun _ _ ↦ number.inj) (hsamples.symm.trans hxs)
    exact (hsome (List.cons_ne_nil _ _)).2.1
  · have hbits : (estimate 3 2 changes).map Float.toBits = some (1 : Float).toBits := by
      decide +kernel
    obtain ⟨sigma, hsigma, hone⟩ := Option.map_eq_some_iff.mp hbits
    exact ⟨sigma, hsigma, hone, ((hdouble 2 changes hpositive).2 sigma hsigma).2⟩

end MarketMaking.Volatility
