/-!
# Powers of two and ten

The units that doubles and decimals are counted in.
-/

namespace MarketMaking

/-- The power of two with the given exponent. -/
def pow2 (exponent : Nat) : Nat := Nat.pow 2 exponent

/-- The power of ten with the given exponent. -/
def pow10 (exponent : Nat) : Nat := Nat.pow 10 exponent

/-- One more in the exponent doubles a power of two. -/
theorem pow2_succ (e : Nat) : pow2 (e + 1) = 2 * pow2 e := by
  simp only [pow2, Nat.pow_succ', Nat.pow_eq]

/-- Powers of two are positive. -/
theorem pow2_pos (e : Nat) : 0 < pow2 e := Nat.pow_pos (by decide)

/-- Powers of ten are positive. -/
theorem pow10_pos (e : Nat) : 0 < pow10 e := Nat.pow_pos (by decide)

end MarketMaking
