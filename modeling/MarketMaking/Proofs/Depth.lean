import MarketMaking.Proofs.Binary64.Finite
import MarketMaking.Proofs.Binary64.Monotone
import MarketMaking.Quote

/-!
# What a quoted side rests on

A quote holds the half spread and the skew that its prices come from, so the depth and the tick of a
side can be read off it. A side is quoted exactly if its depth and the price of its tick are finite.
Nothing on the way to a price turns what is unknown or infinite into a finite number, the comparison
with the touch apart, and there the depth itself is looked at. So all that a quoted side was
computed from is finite.
-/

namespace MarketMaking

namespace Quote

/-! ### The sides of a quote -/

section Sides

variable {R : Type} [Scalar R]

/-- The distance of a side from the middle of the book for an inventory of `position`, in ticks. -/
def depth (q : Quote R) (position : R) : Side → R
  | .buy => q.halfSpread + q.skew * position
  | .sell => q.halfSpread - q.skew * position

/-- The tick at the depth of a side: a whole one, and not beyond the touch. -/
def tick (q : Quote R) (book : Book R) (position : R) : Side → R
  | .buy => bidTick book (q.depth position .buy)
  | .sell => askTick book (q.depth position .sell)

/-- The price of a side, whether it is quoted or not. -/
def price (q : Quote R) : Side → R
  | .buy => q.bidPrice
  | .sell => q.askPrice

private theorem on_eq (q : Quote R) (side : Side) : q.on side = Scalar.finite? (q.price side) := by
  cases side <;> rfl

/-- The half spread and the skew of a computed quote come from the closed form and the volatility,
and the price of a side is that of the tick at its depth. -/
theorem of_around {params : RiskParams R} {calibration : Calibration R} {book : Book R}
    {position : R} {q : Quote R}
    (computed : Quote.around params calibration book position = .ok q) :
    ∃ c, Coefficients.ofDecay params calibration.a calibration.k = .ok c ∧
      q.halfSpread = c.halfSpread params.delta calibration.volatility ∧
      q.skew = c.skew calibration.volatility ∧
      ∀ side, q.price side =
        priceAt (q.tick book position side) (q.depth position side) book.tickSize := by
  unfold around at computed
  cases hc : Coefficients.ofDecay params calibration.a calibration.k with
  | error e =>
    rw [hc] at computed
    cases computed
  | ok c =>
    rw [hc] at computed
    cases computed
    refine ⟨c, rfl, rfl, rfl, ?_⟩
    intro side
    cases side <;> rfl

/-- A quote is computed whenever the decay is positive and finite, whatever the rest is. -/
theorem exists_around (params : RiskParams R) (calibration : Calibration R) (book : Book R)
    (position : R) (decay : (Scalar.isFinite calibration.a && Scalar.isFinite calibration.k &&
      Scalar.isPositive calibration.a && Scalar.isPositive calibration.k) = true) :
    ∃ q, Quote.around params calibration book position = .ok q := by
  unfold around Coefficients.ofDecay
  rw [if_pos decay]
  exact ⟨_, rfl⟩

end Sides

/-! ### The touch -/

/-- The tick of a bid is not above the best bid, whatever the depth comes to. -/
theorem bidTick_le_bestBid (book : Book Float) (depth : Float) :
    Float.le (bidTick book depth) (Float.ofInt book.bestBid) = true :=
  Binary64.min_le (Binary64.value_ofInt book.bestBid).1

/-- The tick of an ask is not below the best ask, whatever the depth comes to. -/
theorem bestAsk_le_askTick (book : Book Float) (depth : Float) :
    Float.le (Float.ofInt book.bestAsk) (askTick book depth) = true :=
  Binary64.le_max (Binary64.value_ofInt book.bestAsk).1

/-! ### Finite prices -/

variable {params : RiskParams Float} {calibration : Calibration Float} {book : Book Float}
  {position : Float} {q : Quote Float} {side : Side} {price : Float}

/-- A price is finite if the depth and the product of tick and price of a tick are, and it is that
product then. -/
theorem finite?_priceAt_eq_some_iff {tick depth tickSize : Float} :
    Scalar.finite? (priceAt tick depth tickSize) = some price ↔
      depth.isFinite = true ∧ (tick * tickSize).isFinite = true ∧ price = tick * tickSize := by
  have hnan : Scalar.isFinite (Scalar.nan : Float) = false := by decide +kernel
  have hfinite (x : Float) : Scalar.isFinite x = x.isFinite := rfl
  unfold priceAt Scalar.finite?
  rw [hfinite depth]
  cases depth.isFinite
  · rw [if_neg Bool.false_ne_true, hnan, if_neg Bool.false_ne_true]
    exact ⟨fun h ↦ (nomatch h), fun h ↦ (nomatch h.1)⟩
  · rw [if_pos rfl, hfinite]
    split
    · next hprice =>
      rw [Option.some_inj]
      exact ⟨fun h ↦ ⟨rfl, hprice, h.symm⟩, fun h ↦ h.2.2.symm⟩
    · next hprice => exact ⟨fun h ↦ (nomatch h), fun h ↦ absurd h.2.1 hprice⟩

/-- A side of a computed quote is quoted exactly if its depth and the price of its tick are finite,
and at that price. -/
theorem on_eq_some_iff (computed : Quote.around params calibration book position = .ok q) :
    q.on side = some price ↔ (q.depth position side).isFinite = true ∧
      (q.tick book position side * book.tickSize).isFinite = true ∧
      price = q.tick book position side * book.tickSize := by
  obtain ⟨-, -, -, -, hprice⟩ := of_around computed
  rw [on_eq, hprice, finite?_priceAt_eq_some_iff]

/-- A side of a computed quote is missing if its depth or the price of its tick is not finite. -/
theorem on_eq_none (computed : Quote.around params calibration book position = .ok q)
    (infinite : (q.depth position side).isFinite = false ∨
      (q.tick book position side * book.tickSize).isFinite = false) : q.on side = none := by
  rw [Option.eq_none_iff_forall_ne_some]
  intro price quoted
  obtain ⟨hdepth, hprice, -⟩ := (on_eq_some_iff computed).mp quoted
  rcases infinite with h | h
  · exact Bool.false_ne_true (h.symm.trans hdepth)
  · exact Bool.false_ne_true (h.symm.trans hprice)

/-- A finite depth comes from a finite half spread, skew and inventory. -/
theorem isFinite_of_depth (finite : (q.depth position side).isFinite = true) :
    q.halfSpread.isFinite = true ∧ q.skew.isFinite = true ∧ position.isFinite = true := by
  cases side with
  | buy =>
    obtain ⟨hspread, hshift⟩ := Binary64.isFinite_of_isFinite_add finite
    exact ⟨hspread, Binary64.isFinite_of_isFinite_mul hshift⟩
  | sell =>
    obtain ⟨hspread, hshift⟩ := Binary64.isFinite_of_isFinite_sub finite
    exact ⟨hspread, Binary64.isFinite_of_isFinite_mul hshift⟩

/-! ### Finite inputs -/

/-- The closed form is for positive finite decays only. -/
theorem decay_of_ofDecay {a k : Float} {c : Coefficients Float}
    (computed : Coefficients.ofDecay params a k = .ok c) :
    (a.isFinite = true ∧ Scalar.isPositive a = true) ∧
      k.isFinite = true ∧ Scalar.isPositive k = true := by
  unfold Coefficients.ofDecay at computed
  split at computed
  · next hdecay =>
    simp only [Bool.and_eq_true] at hdecay
    obtain ⟨⟨⟨ha, hk⟩, hapos⟩, hkpos⟩ := hdecay
    exact ⟨⟨ha, hapos⟩, hk, hkpos⟩
  · cases computed

/-- Is all finite that a side of a quote with the coefficients `c` rests on, and the decay positive?
-/
structure Grounded (q : Quote Float) (c : Coefficients Float) (calibration : Calibration Float)
    (book : Book Float) (position : Float) (side : Side) : Prop where
  a : calibration.a.isFinite = true ∧ Scalar.isPositive calibration.a = true
  k : calibration.k.isFinite = true ∧ Scalar.isPositive calibration.k = true
  volatility : calibration.volatility.isFinite = true
  inventory : position.isFinite = true
  c1 : c.c1.isFinite = true
  c2 : c.c2.isFinite = true
  halfSpread : q.halfSpread.isFinite = true
  skew : q.skew.isFinite = true
  depth : (q.depth position side).isFinite = true
  tick : (q.tick book position side).isFinite = true
  tickSize : book.tickSize.isFinite = true

/-- Whatever doubles a quote was computed from, a side that it quotes rests on finite ones only, and
its price is that of its tick. The depth or the price of a side that is not finite suppresses it. A
volatility, an inventory or a coefficient that is not finite suppresses both sides. -/
theorem grounded_of_on (computed : Quote.around params calibration book position = .ok q) :
    ∃ c, Coefficients.ofDecay params calibration.a calibration.k = .ok c ∧
      (∀ side price, q.on side = some price →
        q.Grounded c calibration book position side ∧
          price = q.tick book position side * book.tickSize) ∧
      (∀ side, (q.depth position side).isFinite = false ∨
        (q.tick book position side * book.tickSize).isFinite = false → q.on side = none) ∧
      (calibration.volatility.isFinite = false ∨ position.isFinite = false ∨
        c.c1.isFinite = false ∨ c.c2.isFinite = false → ∀ side, q.on side = none) := by
  obtain ⟨c, hc, hspread, hskew, -⟩ := of_around computed
  obtain ⟨ha, hk⟩ := decay_of_ofDecay hc
  have hquoted : ∀ side price, q.on side = some price →
      q.Grounded c calibration book position side ∧
        price = q.tick book position side * book.tickSize := by
    intro side price quoted
    obtain ⟨hdepth, hprice, rfl⟩ := (on_eq_some_iff computed).mp quoted
    obtain ⟨htick, htickSize⟩ := Binary64.isFinite_of_isFinite_mul hprice
    obtain ⟨hspread', hskew', hposition⟩ := isFinite_of_depth hdepth
    obtain ⟨hc1, -⟩ := Binary64.isFinite_of_isFinite_add (hspread ▸ hspread')
    obtain ⟨hc2, hvolatility⟩ := Binary64.isFinite_of_isFinite_mul (hskew ▸ hskew')
    exact ⟨⟨ha, hk, hvolatility, hposition, hc1, hc2, hspread', hskew', hdepth, htick, htickSize⟩,
      rfl⟩
  refine ⟨c, hc, hquoted, fun side ↦ on_eq_none computed, ?_⟩
  intro unknown side
  rw [Option.eq_none_iff_forall_ne_some]
  intro price quoted
  obtain ⟨hgrounded, -⟩ := hquoted side price quoted
  rcases unknown with h | h | h | h
  · exact Bool.false_ne_true (h.symm.trans hgrounded.volatility)
  · exact Bool.false_ne_true (h.symm.trans hgrounded.inventory)
  · exact Bool.false_ne_true (h.symm.trans hgrounded.c1)
  · exact Bool.false_ne_true (h.symm.trans hgrounded.c2)

/-- A quote around a touch of 100 and 101, with a short inventory. -/
theorem grounded_of_on_short :
    let params : RiskParams Float := ⟨0.1, 0.1, 1⟩
    let calibration : Calibration Float := ⟨1.5, 0.5, 2, some 0⟩
    let book : Book Float := .ofTouch 100 101 0.5
    let position : Float := -3
    ∃ q, Quote.around params calibration book position = .ok q ∧
      ∃ c, Coefficients.ofDecay params calibration.a calibration.k = .ok c ∧
        (∀ side price, q.on side = some price →
          q.Grounded c calibration book position side ∧
            price = q.tick book position side * book.tickSize) ∧
        (∀ side, (q.depth position side).isFinite = false ∨
          (q.tick book position side * book.tickSize).isFinite = false → q.on side = none) ∧
        (calibration.volatility.isFinite = false ∨ position.isFinite = false ∨
          c.c1.isFinite = false ∨ c.c2.isFinite = false → ∀ side, q.on side = none) := by
  intro params calibration book position
  obtain ⟨q, hq⟩ := exists_around params calibration book position (by decide +kernel)
  exact ⟨q, hq, grounded_of_on hq⟩

end Quote

end MarketMaking
