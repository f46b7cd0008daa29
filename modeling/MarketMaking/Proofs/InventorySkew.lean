import MarketMaking.Proofs.Binary64.Monotone
import MarketMaking.Proofs.Depth

/-!
# Inventory moves quotes

A larger inventory makes the bid deeper and the ask less deep, so neither price rises. This is a
statement about two quotes from the same calibration around the same book. The half spread and the
skew per unit are the same in both, and no skew is negative as long as volatility is not: it has a
square root as its factor. From there each operation on the way to a price keeps the order.
-/

namespace MarketMaking

open Binary64 (value nearest)

namespace Quote

variable {params : RiskParams Float} {calibration : Calibration Float} {book : Book Float}
  {p p' : Float} {q q' : Quote Float}

/-! ### Depths -/

private theorem shape_eq (computed : Quote.around params calibration book p = .ok q)
    (computed' : Quote.around params calibration book p' = .ok q') :
    q'.halfSpread = q.halfSpread ∧ q'.skew = q.skew := by
  obtain ⟨c, hc, hspread, hskew, -⟩ := of_around computed
  obtain ⟨c', hc', hspread', hskew', -⟩ := of_around computed'
  have heq : c' = c := Except.ok.inj (hc'.symm.trans hc)
  rw [hspread, hspread', hskew, hskew', heq]
  exact ⟨rfl, rfl⟩

private theorem value_c2_nonneg {a k : Float} {c : Coefficients Float}
    (computed : Coefficients.ofDecay params a k = .ok c) : 0 ≤ value c.c2 := by
  unfold Coefficients.ofDecay at computed
  split at computed
  · rw [← Except.ok.inj computed]
    exact Binary64.value_sqrt_nonneg _
  · cases computed

/-- A finite skew is not negative if volatility is not. -/
theorem value_skew_nonneg (computed : Quote.around params calibration book p = .ok q)
    (volatility : Scalar.le Scalar.zero calibration.volatility = true)
    (finite : q.skew.isFinite = true) : 0 ≤ value q.skew := by
  obtain ⟨c, hc, -, hskew, -⟩ := of_around computed
  obtain ⟨-, hvolatility⟩ := Binary64.zero_le_iff.mp volatility
  obtain ⟨hfinite, hfinite'⟩ := Binary64.isFinite_of_isFinite_mul (hskew ▸ finite)
  have hproduct : 0 ≤ value c.c2 * value calibration.volatility :=
    mul_nonneg (value_c2_nonneg hc) hvolatility
  rw [hskew]
  change 0 ≤ value (c.c2 * calibration.volatility)
  rw [(Binary64.value_mul hfinite hfinite').2, ← Binary64.nearest_zero]
  exact Binary64.nearest_mono hproduct

/-- A finite bid depth is the half spread and the shift for the inventory, rounded. -/
theorem value_depth_buy (finite : (q.depth p .buy).isFinite = true) :
    value (q.depth p .buy) = nearest (value q.halfSpread + value (q.skew * p)) := by
  obtain ⟨hspread, hshift⟩ := Binary64.isFinite_of_isFinite_add finite
  exact (Binary64.value_add hspread hshift).2

/-- A finite ask depth is the half spread less the shift for the inventory, rounded. -/
theorem value_depth_sell (finite : (q.depth p .sell).isFinite = true) :
    value (q.depth p .sell) = nearest (value q.halfSpread - value (q.skew * p)) := by
  obtain ⟨hspread, hshift⟩ := Binary64.isFinite_of_isFinite_sub finite
  exact (Binary64.value_sub hspread hshift).2

section Depths

variable (computed : Quote.around params calibration book p = .ok q)
  (computed' : Quote.around params calibration book p' = .ok q')
  (volatility : Scalar.le Scalar.zero calibration.volatility = true)
  (le : Float.le p p' = true)

include computed computed' volatility le

private theorem value_shift_le (side : Side) (finite : (q.depth p side).isFinite = true)
    (finite' : (q'.depth p' side).isFinite = true) :
    value (q.skew * p) ≤ value (q'.skew * p') := by
  obtain ⟨-, hskew, hp⟩ := isFinite_of_depth finite
  obtain ⟨-, -, hp'⟩ := isFinite_of_depth finite'
  rw [(shape_eq computed computed').2]
  exact Binary64.value_mul_le hskew (value_skew_nonneg computed volatility hskew) hp hp'
    (Binary64.le_iff.mp le).2.2

/-- With more inventory the bid is at least as deep. -/
theorem bid_depth_le (finite : (q.depth p .buy).isFinite = true)
    (finite' : (q'.depth p' .buy).isFinite = true) :
    value (q.depth p .buy) ≤ value (q'.depth p' .buy) := by
  have hshift := value_shift_le computed computed' volatility le .buy finite finite'
  rw [value_depth_buy finite, value_depth_buy finite', (shape_eq computed computed').1]
  exact Binary64.nearest_mono (by linarith)

/-- With more inventory the ask is at most as deep. -/
theorem ask_depth_le (finite : (q.depth p .sell).isFinite = true)
    (finite' : (q'.depth p' .sell).isFinite = true) :
    value (q'.depth p' .sell) ≤ value (q.depth p .sell) := by
  have hshift := value_shift_le computed computed' volatility le .sell finite finite'
  rw [value_depth_sell finite, value_depth_sell finite', (shape_eq computed computed').1]
  exact Binary64.nearest_mono (by linarith)

end Depths

/-! ### Ticks -/

variable {d d' : Float}

private theorem bidTick_le (book : Book Float) (hd : d.isFinite = true) (hd' : d'.isFinite = true)
    (le : value d ≤ value d') :
    bidTick book d' = bidTick book d ∨ Float.le (bidTick book d') (bidTick book d) = true := by
  rcases Binary64.sub_le_sub_left book.mid hd hd' le with heq | hle
  · left
    unfold bidTick
    rw [heq]
  · right
    exact Binary64.min_le_min (Binary64.round_le_round .toEven hle)
      (Binary64.value_ofInt book.bestBid).1

private theorem askTick_le (book : Book Float) (hd : d.isFinite = true) (hd' : d'.isFinite = true)
    (le : value d ≤ value d') :
    askTick book d = askTick book d' ∨ Float.le (askTick book d) (askTick book d') = true := by
  rcases Binary64.add_le_add_left book.mid hd hd' le with heq | hle
  · left
    unfold askTick
    rw [heq]
  · right
    exact Binary64.max_le_max (Binary64.round_le_round .toEven hle)
      (Binary64.value_ofInt book.bestAsk).1

private theorem price_le {tick tick' tickSize : Float}
    (positive : Scalar.isPositive tickSize = true) (finite : (tick * tickSize).isFinite = true)
    (le : tick = tick' ∨ Float.le tick tick' = true) :
    Float.le (tick * tickSize) (tick' * tickSize) = true := by
  rcases le with rfl | hle
  · have hknown := (Binary64.isFinite_iff.mp finite).1
    exact Binary64.le_iff.mpr ⟨hknown, hknown, le_refl _⟩
  · exact Binary64.mul_le_mul_of_pos hle (Binary64.isFinite_of_isFinite_mul finite).2
      (Binary64.isPositive_iff.mp positive).2

/-! ### Prices -/

/-- Two quotes from one calibration around one book, for a smaller and a larger inventory. Where
both quote a side, the second one quotes no higher price, provided that volatility is not negative
and the price of a tick is positive. The half spread and the skew are the same for every inventory.
-/
theorem price_le_of_inventory_le (computed : Quote.around params calibration book p = .ok q)
    (computed' : Quote.around params calibration book p' = .ok q')
    (volatility : Scalar.le Scalar.zero calibration.volatility = true)
    (positive : Scalar.isPositive book.tickSize = true) (le : Float.le p p' = true) :
    (∀ side price price', q.on side = some price → q'.on side = some price' →
      Float.le price' price = true) ∧
    ∀ position other, Quote.around params calibration book position = .ok other →
      other.halfSpread = q.halfSpread ∧ other.skew = q.skew := by
  refine ⟨?_, fun position other ↦ shape_eq computed⟩
  intro side price price' quoted quoted'
  obtain ⟨hdepth, hprice, rfl⟩ := (on_eq_some_iff computed).mp quoted
  obtain ⟨hdepth', hprice', rfl⟩ := (on_eq_some_iff computed').mp quoted'
  cases side with
  | buy =>
    exact price_le positive hprice' (bidTick_le book hdepth hdepth'
      (bid_depth_le computed computed' volatility le hdepth hdepth'))
  | sell =>
    exact price_le positive hprice' (askTick_le book hdepth' hdepth
      (ask_depth_le computed computed' volatility le hdepth hdepth'))

/-- A short inventory and a long one around a touch of 100 and 101. -/
theorem price_le_of_inventory_le_short_long :
    let params : RiskParams Float := ⟨0.1, 0.1, 1⟩
    let calibration : Calibration Float := ⟨1.5, 0.5, 2, some 0⟩
    let book : Book Float := .ofTouch 100 101 0.5
    ∃ q q' : Quote Float, Quote.around params calibration book (-3) = .ok q ∧
      Quote.around params calibration book 2 = .ok q' ∧
      Scalar.le Scalar.zero calibration.volatility = true ∧
      Scalar.isPositive book.tickSize = true ∧ Float.le (-3) 2 = true ∧
      (∀ side price price', q.on side = some price → q'.on side = some price' →
        Float.le price' price = true) ∧
      ∀ position other, Quote.around params calibration book position = .ok other →
        other.halfSpread = q.halfSpread ∧ other.skew = q.skew := by
  intro params calibration book
  obtain ⟨q, hq⟩ := exists_around params calibration book (-3) (by decide +kernel)
  obtain ⟨q', hq'⟩ := exists_around params calibration book 2 (by decide +kernel)
  have hvolatility : Scalar.le Scalar.zero calibration.volatility = true := by decide +kernel
  have hpositive : Scalar.isPositive book.tickSize = true := by decide +kernel
  have hle : Float.le (-3) 2 = true := by decide +kernel
  exact ⟨q, q', hq, hq', hvolatility, hpositive, hle,
    price_le_of_inventory_le hq hq' hvolatility hpositive hle⟩

end Quote

end MarketMaking
