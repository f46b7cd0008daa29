import MarketMaking.Proofs.Binary64.Quotient
import MarketMaking.Proofs.Binary64.Sum
import MarketMaking.Proofs.Binary64.Whole

/-!
# Precision of doubles

Rounding to doubles moves a number by at most half the distance of neighbouring doubles at its size.
That is at most one part in `2 ^ 53` of the number, unless the number is too small to have all its
digits. So an integer of up to 50 digits can be read off its product with a double again. Dividing
by one half is exact, but for results beyond the limits, which no word can hold anyway.
-/

namespace MarketMaking.Binary64

/-! ### The error of rounding -/

/-- Rounding to the grid moves by at most half a distance. -/
theorem abs_onGrid_sub_le (q : ℚ) : |onGrid q - q| ≤ 2 ^ gridExponent q / 2 := by
  have hpos : (0 : ℚ) < 2 ^ gridExponent q := zpow_pos two_pos _
  have herror : |(nearestInt (q / 2 ^ gridExponent q) : ℚ) - q / 2 ^ gridExponent q| ≤ 1 / 2 :=
    abs_wholeNumber_sub_le .toEven _
  have hscaled : onGrid q - q =
      (nearestInt (q / 2 ^ gridExponent q) - q / 2 ^ gridExponent q) * 2 ^ gridExponent q := by
    unfold onGrid
    rw [sub_mul, div_mul_cancel₀ _ hpos.ne']
  rw [hscaled, abs_mul, abs_of_pos hpos]
  calc _ ≤ 1 / 2 * 2 ^ gridExponent q := mul_le_mul_of_nonneg_right herror hpos.le
    _ = 2 ^ gridExponent q / 2 := by ring

private theorem abs_onGrid_sub_le_div {q : ℚ} (ne : gridExponent q ≠ -1074) :
    |onGrid q - q| ≤ |q| / 2 ^ 53 := by
  have hgrid : gridExponent |q| = gridExponent q := by
    unfold gridExponent
    rw [abs_abs]
  rcases eq_or_ne q 0 with rfl | hq
  · rw [onGrid_zero, sub_self, abs_zero, zero_div]
  · have hdigits := mul_le_of_gridExponent_ne (abs_pos.mpr hq) (hgrid ▸ ne)
    rw [hgrid] at hdigits
    have herror := abs_onGrid_sub_le q
    linarith

/-- Is this a whole multiple of the smallest positive double? -/
def InUnits (q : ℚ) : Prop := ∃ n : ℤ, q = n * 2 ^ (-1074 : ℤ)

/-- A whole multiple of a number in units is one. -/
theorem InUnits.mul {q : ℚ} (units : InUnits q) (t : ℤ) : InUnits (t * q) := by
  obtain ⟨n, rfl⟩ := units
  refine ⟨t * n, ?_⟩
  rw [Int.cast_mul, mul_assoc]

/-- A number in units is moved by at most one part in `2 ^ 53`, however small it is. -/
theorem InUnits.abs_onGrid_sub_le {q : ℚ} (units : InUnits q) :
    |onGrid q - q| ≤ |q| / 2 ^ 53 := by
  obtain ⟨n, hn⟩ := units
  by_cases hgrid : gridExponent q = -1074
  · rw [onGrid_of_eq_mul n (by rw [hgrid]; exact hn), sub_self, abs_zero]
    positivity
  · exact abs_onGrid_sub_le_div hgrid

/-- Finite doubles are in units. -/
theorem inUnits_value {x : Float} (finite : x.isFinite = true) : InUnits (value x) := by
  obtain ⟨negative, m, e, hparts, -, hbound⟩ := exists_ofFloat_eq finite
  have hsplit : (m : ℚ) * 2 ^ e = ((m * 2 ^ (e + 1074).toNat : ℕ) : ℚ) * 2 ^ (-1074 : ℤ) := by
    rw [Nat.cast_mul, Nat.cast_pow, Nat.cast_ofNat, mul_assoc, ← zpow_natCast,
      Int.toNat_of_nonneg (by omega), ← zpow_add₀ two_ne_zero, add_neg_cancel_right]
  unfold value
  rw [hparts]
  cases negative
  · exact ⟨(m * 2 ^ (e + 1074).toNat : ℕ), hsplit⟩
  · refine ⟨-(m * 2 ^ (e + 1074).toNat : ℕ), ?_⟩
    rw [Int.cast_neg, neg_mul]
    exact congrArg Neg.neg hsplit

/-- What is rounded to a number inside the limits is rounded to the grid only. -/
theorem nearest_eq_onGrid {q : ℚ} (lt : |nearest q| < limit) : nearest q = onGrid q := by
  obtain ⟨hlow, hhigh⟩ := abs_lt.mp lt
  apply clamp_of_abs_le
  unfold nearest clamp at hlow hhigh
  rw [abs_le]
  constructor
  · by_contra hlt
    rw [max_eq_left ((min_le_right _ _).trans (not_le.mp hlt).le)] at hlow
    exact lt_irrefl _ hlow
  · by_contra hlt
    rw [min_eq_left (not_le.mp hlt).le] at hhigh
    exact (hhigh.trans_le (le_max_right _ _)).false

/-! ### Factors read off products -/

private theorem gridExponent_ne {q : ℚ} (le : 1 / 2 ≤ |q|) : gridExponent q ≠ -1074 := by
  have hlog : -1 ≤ Int.log 2 |q| := by
    apply (Int.zpow_le_iff_le_log one_lt_two (by linarith)).mp
    rw [Nat.cast_ofNat, zpow_neg_one, inv_eq_one_div]
    exact le
  unfold gridExponent
  omega

variable {t : ℤ} {v : ℚ}

private theorem abs_onGrid_mul_div_sub_le (pos : 0 < v) (units : InUnits v) (t : ℤ) :
    |onGrid (t * v) / v - t| ≤ |(t : ℚ)| / 2 ^ 53 := by
  have hquotient : onGrid (t * v) / v - t = (onGrid (t * v) - t * v) / v := by
    rw [sub_div, mul_div_cancel_right₀ _ pos.ne']
  rw [hquotient, abs_div, abs_of_pos pos, div_le_iff₀ pos]
  calc |onGrid (t * v) - t * v| ≤ |t * v| / 2 ^ 53 := (units.mul t).abs_onGrid_sub_le
    _ = |(t : ℚ)| / 2 ^ 53 * v := by
      rw [abs_mul, abs_of_pos pos]
      ring

/-- What is that close to an integer of up to 50 digits is rounded to a double that is less than one
half away from it. -/
theorem abs_nearest_sub_lt {z : ℚ} (nonzero : t ≠ 0) (small : |t| ≤ 2 ^ 50)
    (close : |z - t| ≤ |(t : ℚ)| / 2 ^ 53) : |nearest z - t| < 1 / 2 := by
  have hone : (1 : ℚ) ≤ |(t : ℚ)| := by exact_mod_cast Int.one_le_abs nonzero
  have hfifty : |(t : ℚ)| ≤ 2 ^ 50 := by exact_mod_cast small
  have hlow : |(t : ℚ)| - |z - t| ≤ |z| := by
    have hsub := abs_sub_abs_le_abs_sub (t : ℚ) z
    rw [abs_sub_comm] at hsub
    linarith
  have hhigh : |z| ≤ |(t : ℚ)| + |z - t| := by
    have hsub := abs_sub_abs_le_abs_sub z (t : ℚ)
    linarith
  have hround : |onGrid z - z| ≤ |z| / 2 ^ 53 :=
    abs_onGrid_sub_le_div (gridExponent_ne (by linarith))
  have hclose : |onGrid z - t| < 1 / 2 := by
    have htriangle := abs_sub_le (onGrid z) z t
    linarith
  have hinside : |onGrid z| ≤ limit := by
    have hsub := abs_sub_abs_le_abs_sub (onGrid z) (t : ℚ)
    have hlarge : (2 : ℚ) ^ 51 ≤ limit := pow_le_pow_right₀ one_le_two (by decide)
    linarith
  have hnearest : nearest z = onGrid z := clamp_of_abs_le hinside
  rw [hnearest]
  exact hclose

/-- An integer of up to 50 digits is nearest to the quotient of its product with a double by that
double, when the product and the quotient are both rounded. -/
theorem wholeNumber_nearest_div (tie : Tie) (small : |t| ≤ 2 ^ 50) (pos : 0 < v)
    (units : InUnits v) (inside : |nearest (t * v)| < limit) :
    wholeNumber tie (nearest (nearest (t * v) / v)) = t := by
  rw [nearest_eq_onGrid inside]
  rcases eq_or_ne t 0 with rfl | hne
  · rw [Int.cast_zero, zero_mul, onGrid_zero, zero_div, nearest_zero]
    exact wholeNumber_intCast tie 0
  · exact wholeNumber_eq_of_abs_lt tie
      (abs_nearest_sub_lt hne small (abs_onGrid_mul_div_sub_le pos units t))

/-! ### Halves -/

/-- Finite doubles are on the grid. -/
theorem onGrid_value {x : Float} (finite : x.isFinite = true) : onGrid (value x) = value x := by
  rw [value_eq]
  exact onGrid_unpackedValue (fits x).canonical finite

private theorem onGrid_two_mul {q : ℚ} (grid : onGrid q = q) : onGrid (2 * q) = 2 * q := by
  rcases eq_or_ne q 0 with rfl | hne
  · rw [mul_zero, onGrid_zero]
  · have hq : 0 < |q| := abs_pos.mpr hne
    have hexponent : gridExponent (2 * q) ≤ gridExponent q + 1 := by
      have hlog : Int.log 2 |2 * q| < Int.log 2 |q| + 2 := by
        have hlt := Int.lt_zpow_succ_log_self (b := 2) one_lt_two |q|
        apply (Int.lt_zpow_iff_log_lt one_lt_two (by rw [abs_mul, abs_two]; linarith)).mp
        rw [Nat.cast_ofNat] at hlt ⊢
        rw [abs_mul, abs_two, show Int.log 2 |q| + 2 = Int.log 2 |q| + 1 + 1 by omega,
          zpow_add_one₀ two_ne_zero]
        linarith
      unfold gridExponent
      omega
    obtain ⟨d, hd⟩ := Int.le.dest hexponent
    apply onGrid_of_eq_mul (nearestInt (q / 2 ^ gridExponent q) * 2 ^ d)
    calc 2 * q = 2 * onGrid q := by rw [grid]
      _ = nearestInt (q / 2 ^ gridExponent q) * 2 ^ (gridExponent q + 1) := by
        unfold onGrid
        rw [zpow_add_one₀ two_ne_zero]
        ring
      _ = _ := by
        rw [← hd, zpow_add₀ two_ne_zero, zpow_natCast]
        push_cast
        ring

/-- The double for one half. -/
theorem value_half :
    (Scalar.half : Float).isFinite = true ∧ value (Scalar.half : Float) = 1 / 2 := by
  have hparts : ofFloat (Scalar.half : Float) = .finite false (2 ^ 52) (-53) := by decide +kernel
  refine ⟨by decide +kernel, ?_⟩
  unfold value
  rw [hparts]
  norm_num

/-- A finite double divided by one half is twice as large, within the limits. -/
theorem value_div_half {x : Float} (finite : x.isFinite = true) :
    value (x / Scalar.half) = clamp (2 * value x) := by
  obtain ⟨hfinite, hvalue⟩ := value_half
  have hne : value (Scalar.half : Float) ≠ 0 := by
    rw [hvalue]
    norm_num
  have htwice : value x / (1 / 2) = 2 * value x := by ring
  rw [(value_div finite hfinite hne).2, hvalue, htwice]
  unfold nearest
  rw [onGrid_two_mul (onGrid_value finite)]

/-- No word can tell a number beyond the limits from the limit. -/
theorem saturate_wholeNumber_clamp (tie : Tie) (q : ℚ) :
    saturate (wholeNumber tie (clamp q)) = saturate (wholeNumber tie q) := by
  have hlimit : wholeNumber tie limit = 2 ^ 1024 := by
    rw [limit_eq_cast, wholeNumber_intCast]
  have hmax : maxInt64 ≤ 2 ^ 1024 := by decide +kernel
  have hmin : -2 ^ 1024 ≤ minInt64 := by decide +kernel
  rcases le_or_gt |q| limit with hinside | hbeyond
  · rw [clamp_of_abs_le hinside]
  · rcases lt_abs.mp hbeyond with habove | hbelow
    · have hmono := wholeNumber_mono tie habove.le
      rw [clamp_of_limit_le habove.le, saturate_of_max_le (by omega),
        saturate_of_max_le (by omega)]
    · have hmono := wholeNumber_mono tie (q := q) (r := -limit) (by linarith)
      rw [wholeNumber_neg] at hmono
      rw [← neg_neg q, clamp_neg, clamp_of_limit_le hbelow.le, neg_neg, wholeNumber_neg,
        saturate_of_le_min (by omega), saturate_of_le_min (by omega)]

end MarketMaking.Binary64
