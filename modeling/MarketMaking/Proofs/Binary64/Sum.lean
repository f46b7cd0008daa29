import MarketMaking.Proofs.Binary64.Order
import MarketMaking.Proofs.Binary64.Sign

/-!
# Sums of doubles

The sum and the difference of finite doubles are the exact ones rounded, so they keep the order of
their terms. What is not finite swallows every finite term.
-/

namespace MarketMaking.Binary64

open Float.Model Float.Model.UnpackedFloat

/-! ### Unpacked sums -/

private theorem gridExponent_of_canonical {m : Nat} {e : ℤ} (pos : 0 < m) (lt : m < 2 ^ 53)
    (bound : -1074 ≤ e) (full : 2 ^ 52 ≤ m ∨ e = -1074) : gridExponent (m * 2 ^ e) = e := by
  have hhigh : m.log2 < 53 := (Nat.log2_lt pos.ne').mpr lt
  rw [← targetExponent_eq pos e (le_refl _) (lt_add_one _)]
  show max ((m.log2 : ℤ) + 1 + e - ((53 : ℕ) : ℤ)) (-1074) = e
  rcases full with hfull | rfl
  · have hlow : 52 ≤ m.log2 := (Nat.le_log2 pos.ne').mpr hfull
    omega
  · omega

/-- Numbers in canonical form are on the grid. -/
theorem onGrid_unpackedValue {f : UnpackedFloat} (canonical : Canonical f)
    (finite : f.isFinite = true) : onGrid (unpackedValue f) = unpackedValue f := by
  cases f with
  | notANumber => cases finite
  | infinity s => cases finite
  | zero s => exact onGrid_zero
  | finite s m e pos =>
    obtain ⟨lt, bound, full⟩ := canonical
    have hgrid := gridExponent_of_canonical pos lt bound full
    change onGrid (signed s (m * 2 ^ e)) = signed s (m * 2 ^ e)
    rw [← signed_onGrid, onGrid_of_eq_mul m (by rw [hgrid, Int.cast_natCast])]

private theorem cast_apply (s : Sign) (n : ℤ) : ((s.apply n : ℤ) : ℚ) = signed s n := by
  cases s
  · exact Int.cast_neg n
  · rfl

private theorem apply_shiftLeft_mul (s : Sign) (m : Nat) {e f : ℤ} (le : f ≤ e) :
    ((s.apply (m <<< (e - f).toNat : ℕ) : ℤ) : ℚ) * 2 ^ f = signed s (m * 2 ^ e) := by
  have hshift : ((m <<< (e - f).toNat : ℕ) : ℚ) * 2 ^ f = m * 2 ^ e := by
    rw [Nat.shiftLeft_eq, Nat.cast_mul, Nat.cast_pow, Nat.cast_ofNat, mul_assoc, ← zpow_natCast,
      Int.toNat_of_nonneg (by omega), ← zpow_add₀ two_ne_zero, sub_add_cancel]
  rw [cast_apply, Int.cast_natCast, ← hshift]
  cases s
  · exact neg_mul _ _
  · rfl

/-- Adding finite doubles rounds the sum to the grid. -/
theorem holds_add {f g : UnpackedFloat} (hf : Canonical f) (hg : Canonical g)
    (finiteLeft : f.isFinite = true) (finiteRight : g.isFinite = true) :
    Holds (add Format.binary64 f g) (onGrid (unpackedValue f + unpackedValue g)) := by
  cases f with
  | notANumber => cases finiteLeft
  | infinity s => cases finiteLeft
  | zero s =>
    have hsum : unpackedValue (.zero s) + unpackedValue g = unpackedValue g := zero_add _
    rw [hsum, onGrid_unpackedValue hg finiteRight]
    cases g with
    | notANumber => cases finiteRight
    | infinity t => cases finiteRight
    | zero t => cases s <;> cases t <;> exact ⟨rfl, trivial, rfl⟩
    | finite t n f hn => exact ⟨rfl, hg, rfl⟩
  | finite s m e hm =>
    cases g with
    | notANumber => cases finiteRight
    | infinity t => cases finiteRight
    | zero t =>
      have hsum : unpackedValue (.finite s m e hm) + unpackedValue (.zero t) =
          unpackedValue (.finite s m e hm) := add_zero _
      rw [hsum, onGrid_unpackedValue hf finiteLeft]
      exact ⟨rfl, hf, rfl⟩
    | finite t n f hn =>
      have hsum : unpackedValue (.finite s m e hm) + unpackedValue (.finite t n f hn) =
          ((s.apply (m <<< (e - min e f).toNat : ℕ) + t.apply (n <<< (f - min e f).toNat : ℕ) : ℤ) :
            ℚ) * 2 ^ min e f := by
        rw [Int.cast_add, add_mul, apply_shiftLeft_mul s m (min_le_left e f),
          apply_shiftLeft_mul t n (min_le_right e f)]
        rfl
      rw [hsum]
      exact holds_normalize _ _ .positive

/-! ### Sums -/

variable {x x' y y' : Float}

/-- The sum of finite doubles is known and is the exact sum rounded. -/
theorem value_add (hx : x.isFinite = true) (hy : y.isFinite = true) :
    (x + y).isNaN = false ∧ value (x + y) = nearest (value x + value y) := by
  rw [value_eq x, value_eq y]
  exact value_ofModel_pack (holds_add (fits x).canonical (fits y).canonical hx hy)

/-- The difference of finite doubles is known and is the exact difference rounded. -/
theorem value_sub (hx : x.isFinite = true) (hy : y.isFinite = true) :
    (x - y).isNaN = false ∧ value (x - y) = nearest (value x - value y) := by
  have hneg := holds_neg (fits y).canonical hy
  have hholds := holds_add (fits x).canonical hneg.canonical hx hneg.finite
  rw [hneg.value, ← sub_eq_add_neg, ← Unpacked.sub_eq_add_neg] at hholds
  rw [value_eq x, value_eq y]
  exact value_ofModel_pack hholds

end MarketMaking.Binary64
