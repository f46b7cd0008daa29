import MarketMaking.Scalar

/-!
# The calibrated state
-/

namespace MarketMaking

/-- The decay `A exp(-k d)` of the arrival intensity and the volatility that quotes are computed
from. All three are unknown until the first successful calibration. -/
structure Calibration (R : Type) where
  a : R
  k : R
  volatility : R
  /-- The step at which the decay was last fitted. -/
  fittedAt : Option Nat
  deriving Repr

namespace Calibration

variable {R : Type} [Scalar R]

/-- The state before any calibration. -/
def unknown : Calibration R := ⟨Scalar.nan, Scalar.nan, Scalar.nan, none⟩

/-- Are decay and volatility all known? -/
def isKnown (c : Calibration R) : Bool :=
  Scalar.isFinite c.a && Scalar.isFinite c.k && Scalar.isFinite c.volatility

end Calibration

end MarketMaking
