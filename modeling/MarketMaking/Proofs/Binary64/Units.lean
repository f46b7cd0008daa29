import Mathlib.Algebra.Order.BigOperators.Group.List
import MarketMaking.Proofs.Binary64.Precision

/-!
# Doubles counted in units

A double is a whole number of units when the unit is a small enough power of two. As long as the
count of the result has at most 53 digits, sums, differences and products of such doubles are not
rounded: their counts are added, subtracted and multiplied. Where only the size of a result matters,
it is kept between two powers of two, which no rounding takes it across.
-/

namespace MarketMaking.Binary64

private theorem nearest_mul_zpow {k e : ℤ} (small : |k| < 2 ^ 53) (low : -1074 ≤ e)
    (high : e ≤ 971) : nearest (k * 2 ^ e) = k * 2 ^ e := by
  have hunit : (0 : ℚ) < 2 ^ e := zpow_pos two_pos e
  have habs : |(k : ℚ) * 2 ^ e| < 2 ^ (53 + e) := by
    rw [abs_mul, abs_of_pos hunit, zpow_add₀ two_ne_zero]
    exact mul_lt_mul_of_pos_right (by exact_mod_cast small) hunit
  have hgrid : onGrid (k * 2 ^ e) = k * 2 ^ e := by
    rcases eq_or_ne k 0 with rfl | hne
    · rw [Int.cast_zero, zero_mul, onGrid_zero]
    · have hpos : 0 < |(k : ℚ) * 2 ^ e| :=
        abs_pos.mpr (mul_ne_zero (Int.cast_ne_zero.mpr hne) hunit.ne')
      have hexponent : gridExponent (k * 2 ^ e) ≤ e := by
        have hlog := (Int.lt_zpow_iff_log_lt one_lt_two hpos).mp (by exact_mod_cast habs)
        unfold gridExponent
        omega
      obtain ⟨d, hd⟩ := Int.le.dest hexponent
      apply onGrid_of_eq_mul (k * 2 ^ d)
      rw [Int.cast_mul, Int.cast_pow, Int.cast_ofNat, mul_assoc, ← zpow_natCast, mul_comm (2 ^ _),
        ← zpow_add₀ two_ne_zero, hd]
  have hlimit : (2 : ℚ) ^ (53 + e) ≤ limit := by
    unfold limit
    rw [← zpow_natCast]
    exact zpow_le_zpow_right₀ one_le_two (by push_cast; omega)
  unfold nearest
  rw [hgrid]
  exact clamp_of_abs_le (habs.le.trans hlimit)

/-- The scalar for a natural number is the double nearest to it. -/
theorem value_scalar (n : Nat) :
    (Scalar.ofNat n : Float).isNaN = false ∧ value (Scalar.ofNat n : Float) = nearest n :=
  value_ofNat n

/-- A finite double that is `k` units of `2 ^ e`. -/
structure Counted (x : Float) (e k : ℤ) : Prop where
  finite : x.isFinite = true
  value_eq : value x = k * 2 ^ e

namespace Counted

variable {x y : Float} {e f j k : ℤ}

private theorem of_nearest (known : x.isNaN = false) (rounded : value x = nearest (k * 2 ^ e))
    (small : |k| < 2 ^ 53) (low : -1074 ≤ e) (high : e ≤ 971) : Counted x e k := by
  rw [nearest_mul_zpow small low high] at rounded
  refine ⟨isFinite_iff.mpr ⟨known, ?_⟩, rounded⟩
  have hunit : (0 : ℚ) < 2 ^ e := zpow_pos two_pos e
  rw [rounded, abs_mul, abs_of_pos hunit]
  calc |(k : ℚ)| * 2 ^ e < 2 ^ 53 * 2 ^ e :=
        mul_lt_mul_of_pos_right (by exact_mod_cast small) hunit
    _ = 2 ^ (53 + e) := (zpow_add₀ two_ne_zero 53 e).symm
    _ ≤ 2 ^ (1024 : ℤ) := zpow_le_zpow_right₀ one_le_two (by omega)
    _ = limit := zpow_natCast 2 1024

/-- A smaller unit is counted more often. -/
theorem rescale (counted : Counted x e k) (d : Nat) : Counted x (e - d) (k * 2 ^ d) := by
  refine ⟨counted.finite, ?_⟩
  rw [counted.value_eq, Int.cast_mul, Int.cast_pow, Int.cast_ofNat, mul_assoc, ← zpow_natCast,
    ← zpow_add₀ two_ne_zero, add_sub_cancel]

theorem add (left : Counted x e j) (right : Counted y e k) (small : |j + k| < 2 ^ 53)
    (low : -1074 ≤ e) (high : e ≤ 971) : Counted (x + y) e (j + k) := by
  obtain ⟨hknown, hvalue⟩ := value_add left.finite right.finite
  refine of_nearest hknown ?_ small low high
  rw [hvalue, left.value_eq, right.value_eq, ← add_mul, Int.cast_add]

theorem sub (left : Counted x e j) (right : Counted y e k) (small : |j - k| < 2 ^ 53)
    (low : -1074 ≤ e) (high : e ≤ 971) : Counted (x - y) e (j - k) := by
  obtain ⟨hknown, hvalue⟩ := value_sub left.finite right.finite
  refine of_nearest hknown ?_ small low high
  rw [hvalue, left.value_eq, right.value_eq, ← sub_mul, Int.cast_sub]

theorem mul (left : Counted x e j) (right : Counted y f k) (small : |j * k| < 2 ^ 53)
    (low : -1074 ≤ e + f) (high : e + f ≤ 971) : Counted (x * y) (e + f) (j * k) := by
  obtain ⟨hknown, hvalue⟩ := value_mul left.finite right.finite
  refine of_nearest hknown ?_ small low high
  rw [hvalue, left.value_eq, right.value_eq, mul_mul_mul_comm, ← zpow_add₀ two_ne_zero,
    Int.cast_mul]

/-- A natural number of up to 53 digits. -/
theorem ofNat {n : Nat} (small : n < 2 ^ 53) : Counted (Scalar.ofNat n) 0 n := by
  obtain ⟨hknown, hvalue⟩ := value_scalar n
  refine of_nearest hknown ?_ (by rw [Nat.abs_cast]; omega) (by decide) (by decide)
  rw [hvalue, zpow_zero, mul_one, Int.cast_natCast]

/-- Where the counts of all terms have up to 53 digits together, no term of a sum is rounded off. -/
theorem sum {α : Type} {terms : List α} {x : α → Float} {k : α → ℤ}
    (counted : ∀ a ∈ terms, Counted (x a) e (k a))
    (small : (terms.map fun a ↦ |k a|).sum < 2 ^ 53) (low : -1074 ≤ e) (high : e ≤ 971) :
    Counted (Scalar.sum (terms.map x)) e (terms.map k).sum := by
  have hfold : ∀ {total : Float} {j : ℤ}, Counted total e j →
      |j| + (terms.map fun a ↦ |k a|).sum < 2 ^ 53 →
      Counted ((terms.map x).foldl (· + ·) total) e (j + (terms.map k).sum) := by
    clear small
    induction terms with
    | nil =>
      intro total j htotal _
      simpa using htotal
    | cons a terms ih =>
      intro total j htotal hsmall
      rw [List.map_cons, List.sum_cons] at hsmall
      have hrest : 0 ≤ (terms.map fun a ↦ |k a|).sum :=
        List.sum_nonneg (List.forall_mem_map.mpr fun a _ ↦ abs_nonneg (k a))
      have hbound : |j + k a| ≤ |j| + |k a| := abs_add_le _ _
      have hnext := htotal.add (counted a List.mem_cons_self) (by omega) low high
      rw [List.map_cons, List.foldl_cons, List.map_cons, List.sum_cons, ← add_assoc]
      exact ih (fun a mem ↦ counted a (List.mem_cons_of_mem _ mem)) hnext (by omega)
  have hzero : Counted (-Scalar.zero) e 0 := by
    have hvalue : value (-Scalar.zero) = 0 := by decide +kernel
    exact ⟨by decide +kernel, by rw [hvalue, Int.cast_zero, zero_mul]⟩
  have hsum := hfold hzero (by rwa [abs_zero, zero_add])
  rwa [zero_add] at hsum

/-- Terms that are not negative need only have a sum of up to 53 digits. -/
theorem sum_of_nonneg {α : Type} {terms : List α} {x : α → Float} {k : α → ℤ}
    (counted : ∀ a ∈ terms, Counted (x a) e (k a)) (nonneg : ∀ a ∈ terms, 0 ≤ k a)
    (small : (terms.map k).sum < 2 ^ 53) (low : -1074 ≤ e) (high : e ≤ 971) :
    Counted (Scalar.sum (terms.map x)) e (terms.map k).sum := by
  refine sum counted ?_ low high
  rwa [List.map_congr_left fun a mem ↦ abs_of_nonneg (nonneg a mem)]

end Counted

/-! ### Differences and limits -/

/-- The limit is rounded to itself. -/
theorem nearest_limit : nearest limit = limit := by
  have hlog : Int.log 2 |limit| = 1024 := by
    rw [abs_of_pos limit_pos]
    exact Int.log_zpow one_lt_two 1024
  have hexponent : gridExponent limit = 972 := by
    unfold gridExponent
    rw [hlog]
    rfl
  have hsplit : limit = ((2 ^ 52 : ℤ) : ℚ) * 2 ^ gridExponent limit := by
    rw [hexponent, Int.cast_pow, Int.cast_ofNat, ← zpow_natCast, ← zpow_add₀ two_ne_zero]
    exact (zpow_natCast 2 1024).symm
  unfold nearest
  rw [onGrid_of_eq_mul _ hsplit, clamp_of_limit_le le_rfl]

private theorem nearest_value {x : Float} (finite : x.isFinite = true) : nearest
    (value x) = value x := by
  unfold nearest
  rw [onGrid_value finite]
  exact clamp_of_abs_le (abs_value_le x)

/-- The difference of finite doubles is rounded to zero only if there is none. -/
theorem nearest_sub_eq_zero_iff {x y : Float} (hx : x.isFinite = true) (hy : y.isFinite = true) :
    nearest (value x - value y) = 0 ↔ value x = value y := by
  have hunits : InUnits (value x - value y) := by
    obtain ⟨m, hm⟩ := inUnits_value hx
    obtain ⟨n, hn⟩ := inUnits_value hy
    exact ⟨m - n, by rw [hm, hn, Int.cast_sub, sub_mul]⟩
  constructor
  · intro hzero
    have hinside : |nearest (value x - value y)| < limit := by
      rw [hzero, abs_zero]
      exact limit_pos
    have herror := hunits.abs_onGrid_sub_le
    rw [← nearest_eq_onGrid hinside, hzero, zero_sub, abs_neg] at herror
    have hsmall : |value x - value y| ≤ 0 := by linarith
    exact sub_eq_zero.mp (abs_nonpos_iff.mp hsmall)
  · intro heq
    rw [heq, sub_self, nearest_zero]

/-- A known double is finite if its value is not negative and below the limit. -/
theorem isFinite_iff_of_nonneg {x : Float} (known : x.isNaN = false) (nonneg : 0 ≤ value x) :
    x.isFinite = true ↔ value x < limit := by
  rw [isFinite_iff, abs_of_nonneg nonneg]
  exact and_iff_right known

/-- The difference of finite doubles that are not negative is finite. -/
theorem isFinite_sub {x y : Float} (hx : x.isFinite = true) (hy : y.isFinite = true)
    (nonnegLeft : 0 ≤ value x) (nonnegRight : 0 ≤ value y) : (x - y).isFinite = true := by
  obtain ⟨hknown, hvalue⟩ := value_sub hx hy
  have hlow : -value y ≤ nearest (value x - value y) :=
    calc -value y = nearest (-value y) := by rw [nearest_neg, nearest_value hy]
      _ ≤ nearest (value x - value y) := nearest_mono (by linarith)
  have hhigh : nearest (value x - value y) ≤ value x :=
    calc nearest (value x - value y) ≤ nearest (value x) := nearest_mono (by linarith)
      _ = value x := nearest_value hx
  have hleft := (abs_lt.mp (isFinite_iff.mp hx).2).2
  have hright := (abs_lt.mp (isFinite_iff.mp hy).2).2
  rw [isFinite_iff, hvalue, abs_lt]
  exact ⟨hknown, by linarith, by linarith⟩

/-! ### Sizes -/

/-- A double between two powers of two. -/
structure Between (x : Float) (low high : ℤ) : Prop where
  finite : x.isFinite = true
  low_le : 2 ^ low ≤ value x
  le_high : value x ≤ 2 ^ high

namespace Between

variable {x y : Float} {low high low' high' : ℤ}

private theorem of_nearest {q : ℚ} (known : x.isNaN = false) (rounded : value x = nearest q)
    (lower : 2 ^ low ≤ q) (upper : q ≤ 2 ^ high) (least : -1074 ≤ low) (greatest : high ≤ 971) :
    Between x low high := by
  have hpower : ∀ {e : ℤ}, -1074 ≤ e → e ≤ 971 → nearest (2 ^ e) = 2 ^ e := fun hlow hhigh ↦ by
    simpa using nearest_mul_zpow (k := 1) (by decide) hlow hhigh
  have hpos : (0 : ℚ) < 2 ^ low := zpow_pos two_pos low
  have hle : low ≤ high := (zpow_le_zpow_iff_right₀ one_lt_two).mp (lower.trans upper)
  have hlow : 2 ^ low ≤ value x := by
    rw [rounded, ← hpower least (by omega)]
    exact nearest_mono lower
  have hhigh : value x ≤ 2 ^ high := by
    rw [rounded, ← hpower (by omega) greatest]
    exact nearest_mono upper
  refine ⟨isFinite_iff.mpr ⟨known, ?_⟩, hlow, hhigh⟩
  rw [abs_of_pos (hpos.trans_le hlow)]
  calc value x ≤ 2 ^ high := hhigh
    _ < 2 ^ (1024 : ℤ) := zpow_lt_zpow_right₀ one_lt_two (by omega)
    _ = limit := zpow_natCast 2 1024

theorem value_pos (between : Between x low high) : 0 < value x :=
  (zpow_pos two_pos low).trans_le between.low_le

theorem isPositive (between : Between x low high) : Scalar.isPositive x = true :=
  isPositive_iff.mpr ⟨(isFinite_iff.mp between.finite).1, between.value_pos⟩

/-- A natural number that is positive and no more than a power of two. -/
theorem ofNat {n k : Nat} (pos : 0 < n) (le : n ≤ 2 ^ k) (greatest : k ≤ 971) :
    Between (Scalar.ofNat n) 0 k := by
  obtain ⟨hknown, hvalue⟩ := value_scalar n
  refine of_nearest hknown hvalue ?_ ?_ (by decide) (by omega)
  · rw [zpow_zero]
    exact Nat.one_le_cast.mpr pos
  · rw [zpow_natCast]
    exact_mod_cast le

theorem mul (left : Between x low high) (right : Between y low' high')
    (least : -1074 ≤ low + low') (greatest : high + high' ≤ 971) :
    Between (x * y) (low + low') (high + high') := by
  obtain ⟨hknown, hvalue⟩ := value_mul left.finite right.finite
  refine of_nearest hknown hvalue ?_ ?_ least greatest
  · rw [zpow_add₀ two_ne_zero]
    exact mul_le_mul left.low_le right.low_le (zpow_pos two_pos _).le left.value_pos.le
  · rw [zpow_add₀ two_ne_zero]
    exact mul_le_mul left.le_high right.le_high right.value_pos.le (zpow_pos two_pos _).le

theorem div (left : Between x low high) (right : Between y low' high')
    (least : -1074 ≤ low - high') (greatest : high - low' ≤ 971) :
    Between (x / y) (low - high') (high - low') := by
  obtain ⟨hknown, hvalue⟩ := value_div left.finite right.finite right.value_pos.ne'
  refine of_nearest hknown hvalue ?_ ?_ least greatest
  · rw [zpow_sub₀ two_ne_zero]
    exact div_le_div₀ left.value_pos.le left.low_le right.value_pos right.le_high
  · rw [zpow_sub₀ two_ne_zero]
    exact div_le_div₀ (zpow_pos two_pos _).le left.le_high (zpow_pos two_pos _) right.low_le

end Between

variable {x : Float}

/-- A spread is refused if it is zero or not finite. -/
theorem refused_iff : (Scalar.eq x Scalar.zero || !Scalar.isFinite x) = true ↔
    (x.isFinite = true → value x = 0) := by
  have hzero : (Scalar.zero : Float).isNaN = false ∧ value (Scalar.zero : Float) = 0 := by
    decide +kernel
  have heq : Scalar.eq x Scalar.zero = true ↔ x.isNaN = false ∧ value x = 0 := by
    change Float.beq x Scalar.zero = true ↔ _
    rw [beq_iff, hzero.2]
    exact and_congr_right fun _ ↦ and_iff_right hzero.1
  have hfinite : Scalar.isFinite x = x.isFinite := rfl
  rw [Bool.or_eq_true, heq, hfinite, Bool.not_eq_true']
  constructor
  · rintro (⟨-, h⟩ | h) hx
    · exact h
    · exact absurd (h.symm.trans hx) Bool.false_ne_true
  · intro h
    cases hx : x.isFinite
    · exact .inr rfl
    · exact .inl ⟨(isFinite_iff.mp hx).1, h hx⟩

end MarketMaking.Binary64
