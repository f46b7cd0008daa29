import Mathlib.Data.Int.Log
import Mathlib.Data.Rat.Floor
import Mathlib.Tactic.FieldSimp
import Mathlib.Tactic.Linarith
import Mathlib.Tactic.Ring

/-!
# The nearest double

Rounding of rational numbers to the values that doubles have: to a whole multiple of the distance
that neighbouring doubles have at the size of the number, with an exact half going to the even
multiple. What is rounded beyond the range of doubles goes to its limit, the power of two that would
come next and that stands for infinity. Rounding keeps the order and is symmetric around zero.
-/

namespace MarketMaking.Binary64

/-! ### Whole numbers -/

/-- The whole number nearest to a rational one, with an exact half going to the even neighbour. -/
def nearestInt (q : ℚ) : ℤ :=
  if 2 * (q - ⌊q⌋) < 1 then ⌊q⌋
  else if 1 < 2 * (q - ⌊q⌋) then ⌊q⌋ + 1
  else ⌊q⌋ + ⌊q⌋ % 2

/-- The nearest whole number is the one below or the next one. -/
theorem nearestInt_bounds (q : ℚ) : ⌊q⌋ ≤ nearestInt q ∧ nearestInt q ≤ ⌊q⌋ + 1 := by
  unfold nearestInt
  split
  · omega
  · split <;> omega

/-- Rounding keeps whole numbers. -/
@[simp] theorem nearestInt_intCast (n : ℤ) : nearestInt n = n := by
  unfold nearestInt
  rw [Int.floor_intCast, sub_self, mul_zero, if_pos one_pos]

/-- Rounding to whole numbers keeps the order. -/
theorem nearestInt_mono {q r : ℚ} (le : q ≤ r) : nearestInt q ≤ nearestInt r := by
  rcases (Int.floor_le_floor le).lt_or_eq with hlt | heq
  · have hq := (nearestInt_bounds q).2
    have hr := (nearestInt_bounds r).1
    omega
  · unfold nearestInt
    rw [heq]
    -- Between the same whole numbers a larger number takes a later branch.
    split
    · split
      · omega
      · split <;> omega
    · next hq =>
      have hr : ¬ 2 * (r - ⌊r⌋) < 1 := by linarith
      rw [if_neg hr]
      split
      · next hq' =>
        have hr' : 1 < 2 * (r - ⌊r⌋) := by linarith
        rw [if_pos hr']
      · split <;> omega

/-- Rounding to whole numbers is symmetric around zero. -/
theorem nearestInt_neg (q : ℚ) : nearestInt (-q) = -nearestInt q := by
  have hfloor : (⌊q⌋ : ℚ) ≤ q := Int.floor_le q
  have hceil : q < ⌊q⌋ + 1 := Int.lt_floor_add_one q
  rcases hfloor.eq_or_lt with heq | hlt
  · have hq : q = ((⌊q⌋ : ℤ) : ℚ) := heq.symm
    rw [hq, ← Int.cast_neg, nearestInt_intCast, nearestInt_intCast]
  · have hneg : ⌊-q⌋ = -⌊q⌋ - 1 := by
      rw [Int.floor_eq_iff]
      push_cast
      constructor <;> linarith
    unfold nearestInt
    rw [hneg]
    push_cast
    split
    · next h₁ =>
      rw [if_neg (by linarith), if_pos (by linarith)]
      omega
    · next h₁ =>
      split
      · next h₂ =>
        rw [if_pos (by linarith)]
        omega
      · next h₂ =>
        rw [if_neg (by linarith), if_neg (by linarith)]
        omega

/-- A quotient of natural numbers is the whole quotient and the rest. -/
theorem natCast_div_eq (num : Nat) {den : Nat} (pos : 0 < den) :
    (num : ℚ) / den = (num / den : ℕ) + ((num % den : ℕ) : ℚ) / den := by
  have hden : (den : ℚ) ≠ 0 := Nat.cast_ne_zero.mpr pos.ne'
  rw [div_eq_iff hden, add_mul, div_mul_cancel₀ _ hden]
  exact_mod_cast (Nat.div_add_mod' num den).symm

/-! ### The grid of doubles -/

/-- The exponent of the distance between neighbouring doubles at the size of a number: doubles have
53 significant digits as long as none of them is below `2 ^ -1074`. -/
def gridExponent (q : ℚ) : ℤ := max (Int.log 2 |q| - 52) (-1074)

/-- A number rounded to the grid of doubles, as if it had no end. -/
def onGrid (q : ℚ) : ℚ := nearestInt (q / 2 ^ gridExponent q) * 2 ^ gridExponent q

@[simp] theorem gridExponent_neg (q : ℚ) : gridExponent (-q) = gridExponent q := by
  unfold gridExponent
  rw [abs_neg]

/-- Rounding to the grid is symmetric around zero. -/
@[simp] theorem onGrid_neg (q : ℚ) : onGrid (-q) = -onGrid q := by
  unfold onGrid
  rw [gridExponent_neg, neg_div, nearestInt_neg, Int.cast_neg, neg_mul]

@[simp] theorem onGrid_zero : onGrid 0 = 0 := by
  unfold onGrid
  rw [zero_div, show nearestInt 0 = 0 from nearestInt_intCast 0, Int.cast_zero, zero_mul]

/-- A whole multiple of the distance at its own size is not moved. -/
theorem onGrid_of_eq_mul {q : ℚ} (n : ℤ) (eq : q = n * 2 ^ gridExponent q) : onGrid q = q := by
  have hpos : (0 : ℚ) < 2 ^ gridExponent q := zpow_pos two_pos _
  unfold onGrid
  have hdiv : q / 2 ^ gridExponent q = n := by
    rw [div_eq_iff hpos.ne']
    exact eq
  rw [hdiv, nearestInt_intCast, ← eq]

private theorem gridExponent_mono {q r : ℚ} (pos : 0 < q) (le : q ≤ r) :
    gridExponent q ≤ gridExponent r := by
  unfold gridExponent
  rw [abs_of_pos pos, abs_of_pos (pos.trans_le le)]
  have hlog := Int.log_mono_right (b := 2) pos le
  omega

/-- A whole multiple of the distance at the size of `q` that `q` is not beyond is one that it is not
rounded beyond. -/
theorem onGrid_le_of_le_mul {q : ℚ} {n : ℤ} (le : q ≤ n * 2 ^ gridExponent q) :
    onGrid q ≤ n * 2 ^ gridExponent q := by
  have hpos : (0 : ℚ) < 2 ^ gridExponent q := zpow_pos two_pos _
  have hdiv : q / 2 ^ gridExponent q ≤ n := (div_le_iff₀ hpos).mpr le
  have hint := nearestInt_mono hdiv
  rw [nearestInt_intCast] at hint
  unfold onGrid
  exact mul_le_mul_of_nonneg_right (Int.cast_le.mpr hint) hpos.le

/-- A whole multiple of the distance at the size of `q` that is not beyond `q` is not beyond what it
is rounded to. -/
theorem mul_le_onGrid_of_mul_le {q : ℚ} {n : ℤ} (le : n * 2 ^ gridExponent q ≤ q) :
    n * 2 ^ gridExponent q ≤ onGrid q := by
  have hpos : (0 : ℚ) < 2 ^ gridExponent q := zpow_pos two_pos _
  have hdiv : (n : ℚ) ≤ q / 2 ^ gridExponent q := (le_div_iff₀ hpos).mpr le
  have hint := nearestInt_mono hdiv
  rw [nearestInt_intCast] at hint
  unfold onGrid
  exact mul_le_mul_of_nonneg_right (Int.cast_le.mpr hint) hpos.le

/-- At the size of a number 53 digits are enough for it. -/
theorem abs_lt_mul (q : ℚ) : |q| < 2 ^ 53 * 2 ^ gridExponent q := by
  have hlog := Int.lt_zpow_succ_log_self (b := 2) one_lt_two |q|
  rw [Nat.cast_ofNat] at hlog
  have hexp : Int.log 2 |q| + 1 ≤ 53 + gridExponent q := by
    unfold gridExponent
    omega
  have hpow : (2 : ℚ) ^ (Int.log 2 |q| + 1) ≤ 2 ^ (53 + gridExponent q) :=
    zpow_le_zpow_right₀ one_le_two hexp
  have hsplit : (2 : ℚ) ^ (53 + gridExponent q) = 2 ^ 53 * 2 ^ gridExponent q :=
    zpow_add₀ two_ne_zero 53 _
  rw [← hsplit]
  exact hlog.trans_le hpow

/-- At the size of a number it takes 53 digits, unless it is at the lower end of the grid. -/
theorem mul_le_of_gridExponent_ne {q : ℚ} (pos : 0 < q) (ne : gridExponent q ≠ -1074) :
    2 ^ 52 * 2 ^ gridExponent q ≤ q := by
  have hlog := Int.zpow_log_le_self (b := 2) one_lt_two pos
  rw [Nat.cast_ofNat] at hlog
  have hexp : 52 + gridExponent q = Int.log 2 q := by
    unfold gridExponent at ne ⊢
    rw [abs_of_pos pos] at *
    omega
  have hpow : (2 : ℚ) ^ (52 + gridExponent q) = 2 ^ 52 * 2 ^ gridExponent q :=
    zpow_add₀ two_ne_zero 52 _
  rw [← hpow, hexp]
  exact hlog

private theorem onGrid_nonneg {q : ℚ} (nonneg : 0 ≤ q) : 0 ≤ onGrid q := by
  have hzero : ((0 : ℤ) : ℚ) * 2 ^ gridExponent q = 0 := by rw [Int.cast_zero, zero_mul]
  rw [← hzero] at nonneg
  rw [← hzero]
  exact mul_le_onGrid_of_mul_le nonneg

private theorem zpow_eq_mul {a b : ℤ} (le : b ≤ a) :
    (2 : ℚ) ^ a = ((2 ^ (a - b).toNat : ℤ) : ℚ) * 2 ^ b := by
  push_cast
  rw [← zpow_natCast, Int.toNat_of_nonneg (by omega), ← zpow_add₀ two_ne_zero]
  congr 1
  omega

private theorem onGrid_mono_of_pos {q r : ℚ} (pos : 0 < q) (le : q ≤ r) : onGrid q ≤ onGrid r := by
  rcases (gridExponent_mono pos le).lt_or_eq with hlt | heq
  · -- A power of two lies between them, and neither is rounded across it.
    have hr : 0 < r := pos.trans_le le
    have hlogs : Int.log 2 q + 1 ≤ Int.log 2 r ∧ gridExponent q ≤ Int.log 2 r ∧
        gridExponent r ≤ Int.log 2 r := by
      unfold gridExponent at hlt ⊢
      rw [abs_of_pos pos, abs_of_pos hr] at *
      omega
    have hbelow : q ≤ 2 ^ Int.log 2 r := by
      have hlog := Int.lt_zpow_succ_log_self (b := 2) one_lt_two q
      have hpow : ((2 : ℕ) : ℚ) ^ (Int.log 2 q + 1) ≤ 2 ^ Int.log 2 r :=
        zpow_le_zpow_right₀ one_le_two hlogs.1
      exact hlog.le.trans hpow
    have habove : (2 : ℚ) ^ Int.log 2 r ≤ r := Int.zpow_log_le_self one_lt_two hr
    calc onGrid q ≤ 2 ^ Int.log 2 r := by
          rw [zpow_eq_mul hlogs.2.1] at hbelow ⊢
          exact onGrid_le_of_le_mul hbelow
      _ ≤ onGrid r := by
          rw [zpow_eq_mul hlogs.2.2] at habove ⊢
          exact mul_le_onGrid_of_mul_le habove
  · have hpos : (0 : ℚ) < 2 ^ gridExponent r := zpow_pos two_pos _
    have hdiv : q / 2 ^ gridExponent r ≤ r / 2 ^ gridExponent r :=
      div_le_div_of_nonneg_right le hpos.le
    unfold onGrid
    rw [heq]
    exact mul_le_mul_of_nonneg_right (Int.cast_le.mpr (nearestInt_mono hdiv)) hpos.le

/-- Rounding to the grid keeps the order. -/
theorem onGrid_mono {q r : ℚ} (le : q ≤ r) : onGrid q ≤ onGrid r := by
  rcases lt_or_ge 0 q with hq | hq
  · exact onGrid_mono_of_pos hq le
  · rcases lt_or_ge r 0 with hr | hr
    · have hneg := onGrid_mono_of_pos (neg_pos.mpr hr) (neg_le_neg le)
      rw [onGrid_neg, onGrid_neg] at hneg
      exact neg_le_neg_iff.mp hneg
    · have hleft := onGrid_nonneg (neg_nonneg.mpr hq)
      rw [onGrid_neg] at hleft
      exact (neg_nonneg.mp hleft).trans (onGrid_nonneg hr)

/-! ### The range of doubles -/

/-- The power of two that follows the largest double. -/
def limit : ℚ := 2 ^ 1024

/-- The number itself in the range of doubles, and the limit on its side beyond it. -/
def clamp (q : ℚ) : ℚ := max (-limit) (min limit q)

/-- The value of the double nearest to a number. -/
def nearest (q : ℚ) : ℚ := clamp (onGrid q)

theorem limit_pos : 0 < limit := by
  unfold limit
  positivity

private theorem clamp_mono {q r : ℚ} (le : q ≤ r) : clamp q ≤ clamp r :=
  max_le_max_left _ (min_le_min_left _ le)

/-- Limiting is symmetric around zero. -/
@[simp] theorem clamp_neg (q : ℚ) : clamp (-q) = -clamp q := by
  have hpos := limit_pos
  unfold clamp
  rcases le_or_gt q (-limit) with hlow | hlow
  · rw [min_eq_left (by linarith), min_eq_right (by linarith), max_eq_right (by linarith),
      max_eq_left (by linarith), neg_neg]
  · rcases le_or_gt limit q with hhigh | hhigh
    · rw [min_eq_right (by linarith), min_eq_left (by linarith), max_eq_left (by linarith),
        max_eq_right (by linarith)]
    · rw [min_eq_right (by linarith), min_eq_right (by linarith), max_eq_right (by linarith),
        max_eq_right (by linarith)]

/-- Numbers inside the limits are not moved. -/
theorem clamp_of_abs_le {q : ℚ} (le : |q| ≤ limit) : clamp q = q := by
  unfold clamp
  rw [min_eq_right (abs_le.mp le).2, max_eq_right (abs_le.mp le).1]

/-- Numbers from the limit on are moved to it. -/
theorem clamp_of_limit_le {q : ℚ} (le : limit ≤ q) : clamp q = limit := by
  have hpos := limit_pos
  unfold clamp
  rw [min_eq_left le, max_eq_right (by linarith)]

/-- Rounding to doubles keeps the order. -/
theorem nearest_mono {q r : ℚ} (le : q ≤ r) : nearest q ≤ nearest r := clamp_mono (onGrid_mono le)

/-- Rounding to doubles is symmetric around zero. -/
@[simp] theorem nearest_neg (q : ℚ) : nearest (-q) = -nearest q := by
  unfold nearest
  rw [onGrid_neg, clamp_neg]

@[simp] theorem nearest_zero : nearest 0 = 0 := by
  unfold nearest
  rw [onGrid_zero]
  apply clamp_of_abs_le
  rw [abs_zero]
  exact limit_pos.le

/-- Positive numbers are not rounded below zero. -/
theorem nearest_nonneg {q : ℚ} (nonneg : 0 ≤ q) : 0 ≤ nearest q := by
  rw [← nearest_zero]
  exact nearest_mono nonneg

/-- Rounding an absolute value is rounding the number. -/
theorem abs_nearest (q : ℚ) : |nearest q| = nearest |q| := by
  rcases le_total 0 q with hpos | hneg
  · rw [abs_of_nonneg hpos, abs_of_nonneg (nearest_nonneg hpos)]
  · rw [abs_of_nonpos hneg, nearest_neg, abs_of_nonpos]
    rw [← nearest_zero]
    exact nearest_mono hneg

end MarketMaking.Binary64
