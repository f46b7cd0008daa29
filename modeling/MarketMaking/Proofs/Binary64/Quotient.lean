import MarketMaking.Proofs.Binary64.Order

/-!
# Quotients of doubles

The division of doubles divides mantissas of enough digits and keeps of the remainder how it
compares with one half. So the quotient of finite doubles is the exact one rounded, also when it is
so small that no digit of the mantissa is left.
-/

namespace MarketMaking.Binary64

open Float.Model Float.Model.UnpackedFloat

/-! ### Mantissas -/

private theorem tells_div (num : Nat) {den : Nat} (pos : 0 < den) :
    Tells (ExtendedMantissa.ofMantissaAndAccuracy (num / den) (accuracyOfFraction (num % den) den))
      ((num : ℚ) / den) := by
  have hden : (0 : ℚ) < den := Nat.cast_pos.mpr pos
  have hless : ((num % den : ℕ) : ℚ) < den := Nat.cast_lt.mpr (Nat.mod_lt num pos)
  rw [natCast_div_eq num pos]
  generalize num / den = whole at *
  generalize num % den = rest at *
  unfold accuracyOfFraction
  rcases Nat.eq_zero_or_pos rest with rfl | some
  · rw [if_pos rfl, Nat.cast_zero, zero_div, add_zero]
    exact tells_exact whole
  · have hsome : (0 : ℚ) < rest / den := div_pos (Nat.cast_pos.mpr some) hden
    have hbelow : (rest : ℚ) / den < 1 := (div_lt_one hden).mpr hless
    rw [if_neg some.ne']
    -- the remainder is compared with one half
    rcases lt_trichotomy (2 * rest) den with hlt | heq | hgt
    · have hhalf : (rest : ℚ) / den < 1 / 2 := by
        rw [div_lt_div_iff₀ hden two_pos, one_mul, mul_comm]
        exact_mod_cast hlt
      rw [Nat.compare_eq_lt.mpr hlt]
      constructor <;> simp only [ExtendedMantissa.ofMantissaAndAccuracy, halfBit] <;> grind
    · have hhalf : (rest : ℚ) / den = 1 / 2 := by
        rw [div_eq_div_iff hden.ne' two_ne_zero, one_mul, mul_comm]
        exact_mod_cast heq
      rw [Nat.compare_eq_eq.mpr heq]
      constructor <;> simp only [ExtendedMantissa.ofMantissaAndAccuracy, halfBit] <;> grind
    · have hhalf : 1 / 2 < (rest : ℚ) / den := by
        rw [div_lt_div_iff₀ two_pos hden, one_mul, mul_comm]
        exact_mod_cast hgt
      rw [Nat.compare_eq_gt.mpr hgt]
      constructor <;> simp only [ExtendedMantissa.ofMantissaAndAccuracy, halfBit] <;> grind

private theorem sub_le_log_div {m n : Nat} {e f : ℤ} (hm : 0 < m) (hn : 0 < n) :
    totalExponent m e - totalExponent n f - 1 ≤ Int.log 2 ((m * 2 ^ e : ℚ) / (n * 2 ^ f)) := by
  have hlow : (2 : ℚ) ^ (totalExponent m e - 1) ≤ m * 2 ^ e := by
    have hle : (2 : ℚ) ^ (m.log2 : ℤ) ≤ m := by exact_mod_cast Nat.log2_self_le hm.ne'
    rw [show totalExponent m e - 1 = m.log2 + e by unfold totalExponent; omega,
      zpow_add₀ two_ne_zero]
    exact mul_le_mul_of_nonneg_right hle (zpow_pos two_pos e).le
  have hhigh : (n : ℚ) * 2 ^ f ≤ 2 ^ totalExponent n f := by
    have hle : (n : ℚ) ≤ 2 ^ ((n.log2 : ℤ) + 1) := by exact_mod_cast Nat.lt_log2_self.le
    rw [show totalExponent n f = n.log2 + 1 + f by rfl, zpow_add₀ two_ne_zero]
    exact mul_le_mul_of_nonneg_right hle (zpow_pos two_pos f).le
  have hmpos : (0 : ℚ) < m * 2 ^ e := mul_pos (Nat.cast_pos.mpr hm) (zpow_pos two_pos e)
  have hnpos : (0 : ℚ) < n * 2 ^ f := mul_pos (Nat.cast_pos.mpr hn) (zpow_pos two_pos f)
  apply (Int.zpow_le_iff_le_log one_lt_two (div_pos hmpos hnpos)).mp
  rw [Nat.cast_ofNat, le_div_iff₀ hnpos]
  calc (2 : ℚ) ^ (totalExponent m e - totalExponent n f - 1) * (n * 2 ^ f)
      ≤ 2 ^ (totalExponent m e - totalExponent n f - 1) * 2 ^ totalExponent n f :=
        mul_le_mul_of_nonneg_left hhigh (zpow_pos two_pos _).le
    _ = 2 ^ (totalExponent m e - 1) := by
        rw [← zpow_add₀ two_ne_zero]
        congr 1
        omega
    _ ≤ m * 2 ^ e := hlow

private theorem targetExponent_zero {e : ℤ} (low : e ≤ -1074) {q : ℚ} (pos : 0 < q)
    (above : q < 1) :
    Format.binary64.targetExponent (totalExponent 0 e) = gridExponent (q * 2 ^ e) := by
  have hq : 0 < q * 2 ^ e := mul_pos pos (zpow_pos two_pos e)
  have hlog : Int.log 2 (q * 2 ^ e) < e := by
    apply (Int.lt_zpow_iff_log_lt one_lt_two hq).mp
    rw [Nat.cast_ofNat]
    exact mul_lt_of_lt_one_left (zpow_pos two_pos e) above
  unfold gridExponent
  rw [abs_of_pos hq]
  show max ((0 : ℤ) + 1 + e - ((53 : ℕ) : ℤ)) (-1074) = _
  omega

private theorem signed_div (s t : Sign) (q r : ℚ) : signed (s / t)
    (q / r) = signed s q / signed t r := by
  cases s <;> cases t
  · exact (neg_div_neg_eq q r).symm
  · exact (neg_div r q).symm
  · exact (div_neg q).symm
  · rfl

private theorem holds_div_finite (s t : Sign) {m n : Nat} {e f : ℤ} (hm : 0 < m) (hn : 0 < n) :
    Holds (div Format.binary64 (.finite s m e hm) (.finite t n f hn))
      (onGrid (signed s (m * 2 ^ e) / signed t (n * 2 ^ f))) := by
  obtain ⟨x, hx⟩ : ∃ x, min (e - f)
      (Format.binary64.targetExponent (totalExponent m e - totalExponent n f)) = x := ⟨_, rfl⟩
  have hdiv : div Format.binary64 (.finite s m e hm) (.finite t n f hn) =
      roundWithAccuracy Format.binary64 (s / t) ((m <<< (e - f - x).toNat) / n) x
        (accuracyOfFraction ((m <<< (e - f - x).toNat) % n) n) := by
    rw [← hx]
    rfl
  -- `x` units make up the exact quotient of the mantissas after the shift
  have hvalue : (((m <<< (e - f - x).toNat : ℕ) : ℚ) / n) * 2 ^ x = m * 2 ^ e / (n * 2 ^ f) := by
    rw [Nat.shiftLeft_eq, Nat.cast_mul, Nat.cast_pow, Nat.cast_ofNat, div_mul_eq_mul_div, mul_assoc,
      ← zpow_natCast, Int.toNat_of_nonneg (by omega), ← zpow_add₀ two_ne_zero, sub_add_cancel,
      zpow_sub₀ two_ne_zero]
    field_simp
  have hquotient : 0 < (m * 2 ^ e : ℚ) / (n * 2 ^ f) :=
    div_pos (mul_pos (Nat.cast_pos.mpr hm) (zpow_pos two_pos e))
      (mul_pos (Nat.cast_pos.mpr hn) (zpow_pos two_pos f))
  have hsize : x ≤ gridExponent (m * 2 ^ e / (n * 2 ^ f)) ∧
      (Int.log 2 ((m * 2 ^ e : ℚ) / (n * 2 ^ f)) < x → x ≤ -1074) := by
    have hlog := sub_le_log_div (e := e) (f := f) hm hn
    have htarget : x ≤ max (totalExponent m e - totalExponent n f - ((53 : ℕ) : ℤ)) (-1074) :=
      hx ▸ min_le_right _ _
    unfold gridExponent
    rw [abs_of_pos hquotient]
    omega
  have hshifted : 0 < m <<< (e - f - x).toNat := by
    rw [Nat.shiftLeft_eq]
    exact Nat.mul_pos hm (Nat.two_pow_pos _)
  generalize m <<< (e - f - x).toNat = num at hdiv hvalue hshifted
  have hratio : (0 : ℚ) < num / n := div_pos (Nat.cast_pos.mpr hshifted) (Nat.cast_pos.mpr hn)
  have htells := tells_div num hn
  rw [← signed_div, hdiv, ← hvalue]
  rw [← hvalue] at hsize
  apply holds_roundWithAccuracy_of_target _ hratio htells _ hsize.1
  rcases Nat.eq_zero_or_pos (num / n) with hzero | hpos
  · have habove : (num : ℚ) / n < 1 := by
      have hfloor := (floor_of_tells htells).2
      rwa [hzero, Nat.cast_zero, zero_add] at hfloor
    have hlog : Int.log 2 ((num : ℚ) / n * 2 ^ x) < x := by
      apply (Int.lt_zpow_iff_log_lt one_lt_two (mul_pos hratio (zpow_pos two_pos x))).mp
      rw [Nat.cast_ofNat]
      exact mul_lt_of_lt_one_left (zpow_pos two_pos x) habove
    rw [hzero]
    exact targetExponent_zero (hsize.2 hlog) hratio habove
  · obtain ⟨below, above⟩ := floor_of_tells htells
    exact targetExponent_eq hpos x below above

/-- Dividing finite doubles by one that is not zero rounds the quotient to the grid. -/
theorem holds_div {f g : UnpackedFloat} (finiteLeft : f.isFinite = true)
    (finiteRight : g.isFinite = true) (ne : unpackedValue g ≠ 0) :
    Holds (div Format.binary64 f g) (onGrid (unpackedValue f / unpackedValue g)) := by
  cases g with
  | notANumber => cases finiteRight
  | infinity t => cases finiteRight
  | zero t => exact absurd rfl ne
  | finite t n e hn =>
    cases f with
    | notANumber => cases finiteLeft
    | infinity s => cases finiteLeft
    | zero s =>
      have hzero : unpackedValue (.zero s) / unpackedValue (.finite t n e hn) = 0 := zero_div _
      rw [hzero, onGrid_zero]
      exact ⟨rfl, trivial, rfl⟩
    | finite s m f hm => exact holds_div_finite s t hm hn

/-! ### Quotients -/

/-- The quotient of finite doubles, the second of which is not zero, is known and is the exact
quotient rounded. -/
theorem value_div {x y : Float} (hx : x.isFinite = true) (hy : y.isFinite = true)
    (ne : value y ≠ 0) :
    (x / y).isNaN = false ∧ value (x / y) = nearest (value x / value y) := by
  rw [value_eq] at ne
  rw [value_eq x, value_eq y]
  exact value_ofModel_pack (holds_div hx hy ne)

end MarketMaking.Binary64
