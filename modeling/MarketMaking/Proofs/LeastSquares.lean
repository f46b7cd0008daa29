import Mathlib.Algebra.BigOperators.Ring.List
import Mathlib.Algebra.Order.BigOperators.Group.List
import Mathlib.Data.List.Pairwise
import Mathlib.Tactic.LinearCombination
import Mathlib.Tactic.Ring
import MarketMaking.Estimation.Regression
import MarketMaking.Proofs.Exact

/-!
# The line of least squares

Over exact numbers a line is fitted whenever there are two points with different abscissae, and it
is the line of least squares. Both rest on one identity: the number of points times the sum of the
products of their coordinates, less the product of the sums, is the sum of the products of the
differences over all pairs of points. So the spread of the abscissae is a sum of squares, which is
zero only if they are all equal. The residuals of the fitted line add up to zero, by themselves and
with the abscissae as weights. A line that differs from it by a line `d` therefore has a sum of
squares that is larger by the sum of the squares of `d`.
-/

namespace MarketMaking

variable {K : Type} [Field K]

/-! ### Pairs of points -/

/-- Entries that are equal pair by pair are all equal. -/
theorem pairwise_eq_iff {α : Type} {l : List α} :
    (l.Pairwise fun a b ↦ a = b) ↔ ∀ a ∈ l, ∀ b ∈ l, a = b := by
  constructor
  · exact List.Pairwise.forall_of_forall fun _ _ ↦ rfl
  · exact fun equal ↦ List.pairwise_of_forall_mem_list equal

/-- The number of points times the sum of the products of their coordinates, less the product of the
sums of the coordinates. -/
def coMoment (points : List (K × K)) : K :=
  points.length * (points.map fun p ↦ p.1 * p.2).sum -
    (points.map Prod.fst).sum * (points.map Prod.snd).sum

/-- The number of abscissae times the sum of their squares, less the square of their sum. -/
def spread (xs : List K) : K := coMoment (xs.map fun x ↦ (x, x))

private theorem coMoment_cons (p : K × K) (points : List (K × K)) :
    coMoment (p :: points) =
      coMoment points + (points.map fun q ↦ (p.1 - q.1) * (p.2 - q.2)).sum := by
  have hsum : (points.map fun q ↦ (p.1 - q.1) * (p.2 - q.2)).sum =
      points.length * (p.1 * p.2) - p.1 * (points.map Prod.snd).sum -
        (points.map Prod.fst).sum * p.2 + (points.map fun q ↦ q.1 * q.2).sum := by
    induction points with
    | nil => simp
    | cons q points ih =>
      simp only [List.map_cons, List.sum_cons, List.length_cons, ih, Nat.cast_succ]
      ring
  unfold coMoment
  simp only [List.map_cons, List.sum_cons, List.length_cons, Nat.cast_succ, hsum]
  ring

/-- The moment changes its sign with the ordinates. -/
theorem coMoment_map_neg (points : List (K × K)) :
    coMoment (points.map fun p ↦ (p.1, -p.2)) = -coMoment points := by
  induction points with
  | nil => simp [coMoment]
  | cons p points ih =>
    rw [List.map_cons, coMoment_cons, ih, coMoment_cons, neg_add, List.sum_neg, List.map_map,
      List.map_map]
    simp only [Function.comp_def, neg_sub_neg, ← mul_neg, neg_sub]

section Order

variable [LinearOrder K] [IsStrictOrderedRing K]

/-- Do the coordinates of any two points differ in the same direction, if they differ? -/
def Concordant (points : List (K × K)) : Prop :=
  points.Pairwise fun p q ↦ 0 ≤ (p.1 - q.1) * (p.2 - q.2)

/-- Points that go the same way have no negative moment. -/
theorem coMoment_nonneg {points : List (K × K)} (concordant : Concordant points) :
    0 ≤ coMoment points := by
  induction points with
  | nil => simp [coMoment]
  | cons p points ih =>
    obtain ⟨hhead, htail⟩ := List.pairwise_cons.mp concordant
    rw [coMoment_cons]
    refine add_nonneg (ih htail) (List.sum_nonneg ?_)
    simpa only [List.forall_mem_map] using hhead

/-- Their moment is zero only if any two of them agree in a coordinate. -/
theorem coMoment_eq_zero_iff {points : List (K × K)} (concordant : Concordant points) :
    coMoment points = 0 ↔ points.Pairwise fun p q ↦ (p.1 - q.1) * (p.2 - q.2) = 0 := by
  induction points with
  | nil => simp [coMoment]
  | cons p points ih =>
    obtain ⟨hhead, htail⟩ := List.pairwise_cons.mp concordant
    have hterms : ∀ z ∈ points.map fun q ↦ (p.1 - q.1) * (p.2 - q.2), 0 ≤ z := by
      simpa only [List.forall_mem_map] using hhead
    rw [coMoment_cons, add_eq_zero_iff_of_nonneg (coMoment_nonneg htail) (List.sum_nonneg hterms),
      ih htail, List.pairwise_cons, and_comm]
    refine and_congr_left fun _ ↦ ⟨fun hzero q mem ↦ ?_, fun hzero ↦ ?_⟩
    · exact List.all_zero_of_le_zero_le_of_sum_eq_zero hterms hzero (List.mem_map_of_mem mem)
    · exact List.sum_eq_zero (by simpa only [List.forall_mem_map] using hzero)

private theorem concordant_diagonal (xs : List K) : Concordant (xs.map fun x ↦ (x, x)) :=
  List.pairwise_map.mpr (List.pairwise_of_forall fun x y ↦ mul_self_nonneg (x - y))

theorem spread_nonneg (xs : List K) : 0 ≤ spread xs := coMoment_nonneg (concordant_diagonal xs)

/-- There is no spread exactly if all numbers are equal. -/
theorem spread_eq_zero_iff {xs : List K} : spread xs = 0 ↔ ∀ x ∈ xs, ∀ y ∈ xs, x = y := by
  unfold spread
  rw [coMoment_eq_zero_iff (concordant_diagonal xs), List.pairwise_map, ← pairwise_eq_iff]
  simp only [mul_self_eq_zero, sub_eq_zero]

end Order

/-! ### Residuals -/

namespace Line

/-- How far a point lies above a line. -/
def residual (line : Line K) (p : K × K) : K := p.2 - (line.slope * p.1 + line.intercept)

/-- The sum of the squared residuals. -/
def squares (line : Line K) (points : List (K × K)) : K :=
  (points.map fun p ↦ line.residual p ^ 2).sum

private theorem sum_residual (line : Line K) (points : List (K × K)) :
    (points.map line.residual).sum = (points.map Prod.snd).sum -
      (line.slope * (points.map Prod.fst).sum + points.length * line.intercept) := by
  induction points with
  | nil => simp
  | cons p points ih =>
    simp only [List.map_cons, List.sum_cons, List.length_cons, ih, Nat.cast_succ]
    unfold residual
    ring

private theorem sum_residual_mul (line : Line K) (points : List (K × K)) :
    (points.map fun p ↦ line.residual p * p.1).sum = (points.map fun p ↦ p.1 * p.2).sum -
      (line.slope * (points.map fun p ↦ p.1 * p.1).sum +
        line.intercept * (points.map Prod.fst).sum) := by
  induction points with
  | nil => simp
  | cons p points ih =>
    simp only [List.map_cons, List.sum_cons, ih]
    unfold residual
    ring

private theorem squares_eq (line other : Line K) (points : List (K × K)) :
    other.squares points = line.squares points -
      2 * ((other.slope - line.slope) * (points.map fun p ↦ line.residual p * p.1).sum +
        (other.intercept - line.intercept) * (points.map line.residual).sum) +
      (points.map fun p ↦ ((other.slope - line.slope) * p.1 +
        (other.intercept - line.intercept)) ^ 2).sum := by
  unfold squares
  induction points with
  | nil => simp
  | cons p points ih =>
    simp only [List.map_cons, List.sum_cons, ih]
    have hpoint : other.residual p = line.residual p -
        ((other.slope - line.slope) * p.1 + (other.intercept - line.intercept)) := by
      unfold residual
      ring
    rw [hpoint]
    ring

/-- The solution of the normal equations. -/
def normal (points : List (K × K)) : Line K :=
  let slope := coMoment points / spread (points.map Prod.fst)
  ⟨slope, ((points.map Prod.snd).sum - slope * (points.map Prod.fst).sum) / points.length⟩

/-- A line of numbers. -/
def exact (line : Line K) : Line (Exact K) := ⟨.number line.slope, .number line.intercept⟩

end Line

private theorem spread_map_fst (points : List (K × K)) : spread (points.map Prod.fst) =
    points.length * (points.map fun p ↦ p.1 * p.1).sum -
      (points.map Prod.fst).sum * (points.map Prod.fst).sum := by
  unfold spread coMoment
  simp only [List.length_map, List.map_map, Function.comp_def]

namespace Line

section Normal

variable [LinearOrder K] [IsStrictOrderedRing K] {points : List (K × K)}

private theorem exists_ne_of_spread (spreads : spread (points.map Prod.fst) ≠ 0) :
    ∃ p ∈ points, ∃ q ∈ points, p.1 ≠ q.1 := by
  by_contra hequal
  push Not at hequal
  exact spreads (spread_eq_zero_iff.mpr (by simpa only [List.forall_mem_map] using hequal))

variable (spreads : spread (points.map Prod.fst) ≠ 0)

include spreads

private theorem length_ne_zero : (points.length : K) ≠ 0 := by
  obtain ⟨p, hp, -⟩ := exists_ne_of_spread spreads
  exact Nat.cast_ne_zero.mpr (List.length_pos_of_mem hp).ne'

private theorem length_mul_intercept : points.length * (normal points).intercept =
    (points.map Prod.snd).sum - (normal points).slope * (points.map Prod.fst).sum :=
  mul_div_cancel₀ _ (length_ne_zero spreads)

/-- The residuals of the solution add up to zero. -/
theorem sum_residual_normal : (points.map (normal points).residual).sum = 0 := by
  rw [sum_residual, length_mul_intercept spreads]
  ring

/-- The residuals of the solution are orthogonal to the abscissae. -/
theorem sum_residual_mul_normal :
    (points.map fun p ↦ (normal points).residual p * p.1).sum = 0 := by
  have hslope : (normal points).slope * spread (points.map Prod.fst) = coMoment points :=
    div_mul_cancel₀ _ spreads
  rw [spread_map_fst, coMoment] at hslope
  rw [sum_residual_mul]
  apply mul_left_cancel₀ (length_ne_zero spreads)
  linear_combination -hslope - (points.map Prod.fst).sum * length_mul_intercept spreads

/-- Every other line has a larger sum of squares than the solution. -/
theorem squares_normal_lt {other : Line K} (ne : other ≠ normal points) :
    (normal points).squares points < other.squares points := by
  -- The differences of the two lines at the points add their squares.
  rw [squares_eq (normal points) other, sum_residual_normal spreads,
    sum_residual_mul_normal spreads, mul_zero, mul_zero, add_zero, mul_zero, sub_zero,
    lt_add_iff_pos_right]
  set a := other.slope - (normal points).slope with ha
  set b := other.intercept - (normal points).intercept with hb
  have hsquares : ∀ z ∈ points.map fun p ↦ (a * p.1 + b) ^ 2, 0 ≤ z := by
    simp only [List.forall_mem_map, sq_nonneg, implies_true]
  refine (List.sum_nonneg hsquares).lt_of_ne' fun hzero ↦ ne ?_
  have hpoint : ∀ p ∈ points, a * p.1 + b = 0 := fun p mem ↦
    pow_eq_zero_iff two_ne_zero |>.mp
      (List.all_zero_of_le_zero_le_of_sum_eq_zero hsquares hzero (List.mem_map_of_mem mem))
  obtain ⟨p, hp, q, hq, hne⟩ := exists_ne_of_spread spreads
  have hslope : a * (p.1 - q.1) = 0 := by linear_combination hpoint p hp - hpoint q hq
  have hazero : a = 0 := (mul_eq_zero.mp hslope).resolve_right (sub_ne_zero.mpr hne)
  have hbzero : b = 0 := by simpa [hazero] using hpoint p hp
  rw [ha, sub_eq_zero] at hazero
  rw [hb, sub_eq_zero] at hbzero
  cases other
  exact congrArg₂ Line.mk hazero hbzero

/-- A line through all points is the solution. -/
theorem eq_normal_of_residual_eq_zero {through : Line K}
    (zero : ∀ p ∈ points, through.residual p = 0) : through = normal points := by
  by_contra hne
  have hlt := squares_normal_lt spreads hne
  have hnonneg : 0 ≤ (normal points).squares points :=
    List.sum_nonneg (by simp only [List.forall_mem_map, sq_nonneg, implies_true])
  have hthrough : through.squares points = 0 :=
    List.sum_eq_zero (List.forall_mem_map.mpr fun p mem ↦ by rw [zero p mem, sq, zero_mul])
  exact absurd (hthrough ▸ hlt) hnonneg.not_gt

end Normal

/-! ### The fitted line -/

/-- What makes a line the one of least squares: its residuals are balanced, by themselves and with
the abscissae as weights, no other line has as small a sum of squares, and a line through all points
is none but this one. -/
structure IsLeastSquares [LT K] (line : Line K) (points : List (K × K)) : Prop where
  balanced : (points.map line.residual).sum = 0
  orthogonal : (points.map fun p ↦ line.residual p * p.1).sum = 0
  least : ∀ other : Line K, other ≠ line → line.squares points < other.squares points
  through : ∀ other : Line K, (∀ p ∈ points, other.residual p = 0) → other = line

variable [LinearOrder K] [IsStrictOrderedRing K] [Elementary K]

open Exact

/-- Two points or more have the solution of the normal equations fitted to them, if their abscissae
have a spread. -/
theorem fit_numbers (points : List (K × K)) (two : 2 ≤ points.length) :
    Line.fit (numbers (points.map Prod.fst)) (numbers (points.map Prod.snd)) =
      if spread (points.map Prod.fst) = 0 then .error (.degenerateFit .noVariance)
      else .ok (normal points).exact := by
  have hlength : (points.length : K) ≠ 0 := Nat.cast_ne_zero.mpr (by omega)
  have hproducts : List.zipWith (· * ·) (points.map Prod.fst) (points.map Prod.snd) =
      points.map fun p ↦ p.1 * p.2 := by
    rw [List.zipWith_map, List.zipWith_self]
  have hspread : (points.length : K) * ((points.map Prod.fst).map fun x ↦ x * x).sum -
      (points.map Prod.fst).sum * (points.map Prod.fst).sum = spread (points.map Prod.fst) := by
    rw [spread_map_fst, List.map_map]
    rfl
  unfold Line.fit
  rw [length_numbers, length_numbers, List.length_map, List.length_map, if_neg (not_not_intro rfl),
    if_neg (by omega)]
  simp only [ofNat_eq, sum_numbers, map_mul_self_numbers, zipWith_mul_numbers, hproducts, zero_eq,
    number_mul, number_sub, hspread, isFinite_number, Bool.not_true, Bool.or_false, eq_number_iff]
  split
  · rfl
  · next hne =>
    rw [number_div _ hne, number_mul, number_sub, number_div _ hlength]
    rfl

/-- Can no line be fitted? There must be as many ordinates as abscissae, two at least, and not all
abscissae may be equal. -/
def Degenerate (xs ys : List K) : Prop :=
  xs.length ≠ ys.length ∨ xs.length < 2 ∨ ∀ x ∈ xs, ∀ x' ∈ xs, x = x'

instance (xs ys : List K) : Decidable (Degenerate xs ys) :=
  inferInstanceAs (Decidable (_ ∨ _ ∨ _))

/-- Over exact numbers a fit fails exactly if the points are degenerate, and as a degenerate fit.
Otherwise the line of least squares is fitted. -/
theorem fit_leastSquares (xs ys : List K) :
    ((∃ defect, Line.fit (numbers xs) (numbers ys) = .error (.degenerateFit defect)) ↔
      Degenerate xs ys) ∧
      (¬ Degenerate xs ys → ∃ line : Line K,
        Line.fit (numbers xs) (numbers ys) = .ok line.exact ∧ line.IsLeastSquares (xs.zip ys)) := by
  by_cases hlength : xs.length = ys.length
  · by_cases htwo : 2 ≤ xs.length
    · have hfst : (xs.zip ys).map Prod.fst = xs := List.map_fst_zip hlength.le
      have hsnd : (xs.zip ys).map Prod.snd = ys := List.map_snd_zip hlength.ge
      have hfit := fit_numbers (xs.zip ys) (by rw [List.length_zip]; omega)
      rw [hfst, hsnd] at hfit
      have hdegenerate : Degenerate xs ys ↔ spread xs = 0 := by
        rw [spread_eq_zero_iff]
        exact ⟨fun h ↦ (h.resolve_left (not_not_intro hlength)).resolve_left (by omega),
          fun h ↦ .inr (.inr h)⟩
      rw [hdegenerate, hfit]
      by_cases hspread : spread xs = 0
      · rw [if_pos hspread]
        exact ⟨⟨fun _ ↦ hspread, fun _ ↦ ⟨_, rfl⟩⟩, fun hne ↦ absurd hspread hne⟩
      · have hpoints : spread ((xs.zip ys).map Prod.fst) ≠ 0 := by rwa [hfst]
        rw [if_neg hspread]
        refine ⟨⟨fun ⟨_, h⟩ ↦ (nomatch h), fun h ↦ absurd h hspread⟩, fun _ ↦ ⟨_, rfl, ?_⟩⟩
        exact ⟨sum_residual_normal hpoints, sum_residual_mul_normal hpoints,
          fun _ ↦ squares_normal_lt hpoints, fun _ ↦ eq_normal_of_residual_eq_zero hpoints⟩
    · have hdegenerate : Degenerate xs ys := .inr (.inl (by omega))
      refine ⟨iff_of_true ⟨.tooFewPoints xs.length, ?_⟩ hdegenerate, fun h ↦ absurd hdegenerate h⟩
      unfold Line.fit
      rw [length_numbers, length_numbers, if_neg (not_not_intro hlength), if_pos (by omega)]
  · have hdegenerate : Degenerate xs ys := .inl hlength
    refine ⟨iff_of_true ⟨.lengthMismatch xs.length ys.length, ?_⟩ hdegenerate,
      fun h ↦ absurd hdegenerate h⟩
    unfold Line.fit
    rw [length_numbers, length_numbers, if_pos hlength]

/-- Four points on a line have that line fitted to them. -/
theorem fit_leastSquares_rising :
    letI := Elementary.coarse
    let xs : List ℚ := [0, 1, 2, 3]
    let ys : List ℚ := [5, 7, 9, 11]
    ¬ Degenerate xs ys ∧ Line.fit (numbers xs) (numbers ys) = .ok (Line.exact ⟨2, 5⟩) := by
  intro xs ys
  let _ := Elementary.coarse
  have hspread : ¬ Degenerate xs ys := by decide +kernel
  obtain ⟨line, hfit, hleast⟩ := (fit_leastSquares xs ys).2 hspread
  have hthrough : (⟨2, 5⟩ : Line ℚ) = line := hleast.through ⟨2, 5⟩ (by decide +kernel)
  exact ⟨hspread, hthrough ▸ hfit⟩

end Line

end MarketMaking
