import MarketMaking.Strategy
import MarketMaking.Venue.Replay

/-!
# What an accepted configuration satisfies

The conditions on a configuration as propositions with names. A strategy starts on a configuration
exactly when all of them hold, and then it starts without a memory.
-/

namespace MarketMaking

variable {R : Type} [Scalar R]

/-- All conditions on a configuration. -/
structure Config.Accepted (c : Config R) : Prop where
  xi : Scalar.isFinite c.xi = true ∧ Scalar.isPositive c.xi = true
  gamma : Scalar.isFinite c.gamma = true ∧ Scalar.isPositive c.gamma = true
  delta : Scalar.isFinite c.delta = true ∧ Scalar.isPositive c.delta = true
  maxPosition : Scalar.isPositive c.maxPosition = true
  orderQty : Scalar.isPositive c.orderQty = true
  window : 2 ≤ c.calibrationWindow
  cadence : 1 ≤ c.calibrationCadence
  capacity : c.calibrationWindow ≤ c.historyCapacity
  compact : c.historyOverflow = .compact → c.calibrationWindow < c.historyCapacity
  normalization : Scalar.isFinite c.volatilityNormalization = true ∧
    Scalar.isPositive c.volatilityNormalization = true
  stepMillis : 0 < c.stepMillis
  histogramBuckets : 2 ≤ c.histogramBuckets
  fitBuckets : 2 ≤ c.fitBuckets ∧ c.fitBuckets ≤ c.histogramBuckets

/-- A window holds samples. -/
theorem Config.Accepted.window_pos {c : Config R} (accepted : c.Accepted) :
    0 < c.calibrationWindow :=
  Nat.lt_of_lt_of_le Nat.two_pos accepted.window

/-- A configuration without a defect is one that satisfies all conditions. -/
theorem Config.defect?_eq_none_iff_accepted (c : Config R) : c.defect? = none ↔ c.Accepted := by
  rw [defect?_eq_none_iff]
  simp only [conditions, List.forall_mem_cons, List.not_mem_nil, false_implies, implies_true,
    and_true, Bool.and_eq_true, Bool.or_eq_true, decide_eq_true_eq]
  have hcompact : (c.historyOverflow = .fail ∨ c.calibrationWindow < c.historyCapacity) ↔
      (c.historyOverflow = .compact → c.calibrationWindow < c.historyCapacity) := by
    cases c.historyOverflow <;> simp
  rw [hcompact]
  constructor
  · rintro ⟨h₁, h₂, h₃, h₄, h₅, h₆, h₇, h₈, h₉, h₁₀, h₁₁, h₁₂, h₁₃⟩
    exact ⟨h₁, h₂, h₃, h₄, h₅, h₆, h₇, h₈, h₉, h₁₀, h₁₁, h₁₂, h₁₃⟩
  · rintro ⟨h₁, h₂, h₃, h₄, h₅, h₆, h₇, h₈, h₉, h₁₀, h₁₁, h₁₂, h₁₃⟩
    exact ⟨h₁, h₂, h₃, h₄, h₅, h₆, h₇, h₈, h₉, h₁₀, h₁₁, h₁₂, h₁₃⟩

/-- A strategy starts on accepted configurations only, and without a memory. -/
theorem Strategy.start_eq_ok_iff {c : Config R} {s : Strategy R} :
    Strategy.start c = .ok s ↔ c.Accepted ∧ Strategy.fresh c = s := by
  rw [← Config.defect?_eq_none_iff_accepted, start]
  cases c.defect? <;> simp

/-- On a configuration without a defect a strategy starts. -/
theorem Strategy.start_eq_fresh {c : Config R} (sound : c.defect? = none) :
    Strategy.start c = .ok (Strategy.fresh c) :=
  Strategy.start_eq_ok_iff.mpr ⟨c.defect?_eq_none_iff_accepted.mp sound, rfl⟩

/-- A short memory: windows of two steps, a calibration at every step, and room for three samples of
which the oldest are dropped. -/
def Config.brief : Config Float :=
  { Config.default with
    calibrationWindow := 2
    calibrationCadence := 1
    historyCapacity := 3
    historyOverflow := .compact }

/-- A strategy with a short memory starts. -/
theorem Config.start_brief : Strategy.start Config.brief = .ok (Strategy.fresh Config.brief) :=
  Strategy.start_eq_fresh (by decide +kernel)

/-- A venue without trades whose next ticks bring a buy each, five, three and five half ticks beyond
the middle. Run on a short memory, the fits of the second of these ticks and of the third fall with
the distance, and both sides are quoted. -/
def ReplayVenue.falling : ReplayVenue Float :=
  (((ReplayVenue.idle 100 101 0.5).push ⟨100, 101, [⟨.buy, 51.5, 1⟩]⟩).push
    ⟨100, 101, [⟨.buy, 51, 1⟩]⟩).push ⟨100, 101, [⟨.buy, 51.5, 1⟩]⟩

end MarketMaking
