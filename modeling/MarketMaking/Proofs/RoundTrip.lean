import MarketMaking.Proofs.Binary64.Precision
import MarketMaking.Proofs.Binary64.Quotient
import MarketMaking.Proofs.Depth
import MarketMaking.Reconcile

/-!
# From a tick to a price and back

A tick is multiplied by the price of one tick, and the price that results is divided by it again to
find the level of an order. Product and quotient are rounded, and the level is rounded to a whole
number in another way than the tick was. Each of these operations keeps the order. Ticks of up to 50
binary digits are found again exactly, so a level is on the side of the touch that its tick is on.
-/

namespace MarketMaking

open Binary64 (value nearest wholeNumber saturate limit)

/-! ### Whole numbers there and back -/

/-- The word that is read back of the product of an integer with `v` when it is divided by `v`
again. -/
def Binary64.readBack (v : ℚ) (t : ℤ) : ℤ :=
  saturate (wholeNumber .up (nearest (nearest (t * v) / v)))

namespace Binary64

variable {v : ℚ} {s t : ℤ}

/-- What is read back is in the order of the integers. -/
theorem readBack_mono (pos : 0 < v) (le : s ≤ t) : readBack v s ≤ readBack v t := by
  have hproduct : (s : ℚ) * v ≤ t * v := mul_le_mul_of_nonneg_right (Int.cast_le.mpr le) pos.le
  have hquotient : nearest (s * v) / v ≤ nearest (t * v) / v :=
    div_le_div_of_nonneg_right (nearest_mono hproduct) pos.le
  exact saturate_mono (wholeNumber_mono .up (nearest_mono hquotient))

/-- An integer of up to 50 digits is read back as it is, if its product is inside the limits. -/
theorem readBack_eq (pos : 0 < v) (units : InUnits v) (small : |t| ≤ 2 ^ 50)
    (inside : |nearest (t * v)| < limit) : readBack v t = t := by
  obtain ⟨hlow, hhigh⟩ := abs_le.mp small
  have hmin : minInt64 ≤ -2 ^ 50 := by decide
  have hmax : 2 ^ 50 ≤ maxInt64 := by decide
  unfold readBack
  rw [wholeNumber_nearest_div .up small pos units inside]
  exact saturate_of_mem (hmin.trans hlow) (hhigh.trans hmax)

private theorem abs_nearest_mul_lt (le : |s| ≤ |t|) (inside : |nearest (t * v)| < limit) :
    |nearest (s * v)| < limit := by
  have hle : |(s : ℚ) * v| ≤ |t * v| := by
    rw [abs_mul, abs_mul]
    exact mul_le_mul_of_nonneg_right (by exact_mod_cast le) (abs_nonneg v)
  rw [abs_nearest] at inside ⊢
  exact (nearest_mono hle).trans_lt inside

private theorem readBack_le (pos : 0 < v) (units : InUnits v) (le : t ≤ s) (small : |s| ≤ 2 ^ 50)
    (inside : |nearest (t * v)| < limit) : readBack v t ≤ s := by
  have hs := abs_le.mp small
  by_cases ht : |t| ≤ 2 ^ 50
  · rw [readBack_eq pos units ht inside]
    exact le
  · -- Then it is below all of them.
    have hbelow : t ≤ -2 ^ 50 := by
      by_contra habove
      exact ht (abs_le.mpr ⟨by omega, le.trans hs.2⟩)
    have hexact : readBack v (-2 ^ 50) = -2 ^ 50 :=
      readBack_eq pos units (by decide)
        (abs_nearest_mul_lt (by rw [abs_of_nonpos (by omega), abs_of_nonpos (by omega)]; omega)
          inside)
    calc readBack v t ≤ readBack v (-2 ^ 50) := readBack_mono pos hbelow
      _ = -2 ^ 50 := hexact
      _ ≤ s := hs.1

private theorem le_readBack (pos : 0 < v) (units : InUnits v) (le : s ≤ t) (small : |s| ≤ 2 ^ 50)
    (inside : |nearest (t * v)| < limit) : s ≤ readBack v t := by
  have hs := abs_le.mp small
  by_cases ht : |t| ≤ 2 ^ 50
  · rw [readBack_eq pos units ht inside]
    exact le
  · -- Then it is above all of them.
    have habove : 2 ^ 50 ≤ t := by
      by_contra hbelow
      exact ht (abs_le.mpr ⟨hs.1.trans le, by omega⟩)
    have hexact : readBack v (2 ^ 50) = 2 ^ 50 :=
      readBack_eq pos units (by decide)
        (abs_nearest_mul_lt (by rw [abs_of_nonneg (by omega), abs_of_nonneg (by omega)]; omega)
          inside)
    calc s ≤ 2 ^ 50 := hs.2
      _ = readBack v (2 ^ 50) := hexact.symm
      _ ≤ readBack v t := readBack_mono pos habove

end Binary64

/-- The level of the price of a whole tick is what is read back of the tick. -/
theorem OrderId.tick_ofPrice {tick tickSize : Float} (finite : (tick * tickSize).isFinite = true)
    (pos : 0 < value tickSize) {t : ℤ} (eq : value tick = t) :
    (OrderId.ofPrice (tick * tickSize) tickSize).tick = Binary64.readBack (value tickSize) t := by
  obtain ⟨htick, htickSize⟩ := Binary64.isFinite_of_isFinite_mul finite
  change Binary64.toInt64 (Binary64.round .up (tick * tickSize / tickSize)) = _
  rw [Binary64.toInt64_round, (Binary64.value_div finite htickSize pos.ne').2,
    (Binary64.value_mul htick htickSize).2, eq]
  rfl

/-! ### Ticks of a quote -/

/-- Is the touch not crossed, and are both of its ticks of at most 50 binary digits? -/
structure Book.InRange {R : Type} (book : Book R) : Prop where
  low : -2 ^ 50 ≤ book.bestBid
  uncrossed : book.bestBid < book.bestAsk
  high : book.bestAsk ≤ 2 ^ 50

namespace Book.InRange

variable {book : Book Float} (range : book.InRange)

include range

private theorem abs_bestBid_le : |book.bestBid| ≤ 2 ^ 50 :=
  abs_le.mpr ⟨range.low, range.uncrossed.le.trans range.high⟩

private theorem abs_bestAsk_le : |book.bestAsk| ≤ 2 ^ 50 :=
  abs_le.mpr ⟨range.low.trans range.uncrossed.le, range.high⟩

end Book.InRange

/-- Is a level not beyond the touch of a side, so that an order of that side can rest there? -/
def Book.IsPassive {R : Type} (book : Book R) : Side → ℤ → Prop
  | .buy, level => level ≤ book.bestBid
  | .sell, level => book.bestAsk ≤ level

namespace Quote

private theorem exists_value_bidTick {book : Book Float} (range : book.InRange) (depth : Float) :
    ∃ t : ℤ, value (bidTick book depth) = t ∧ t ≤ book.bestBid := by
  have htouch := Binary64.value_ofInt_of_abs_le range.abs_bestBid_le
  have hle := (Binary64.le_iff.mp (bidTick_le_bestBid book depth)).2.2
  have hwhole : ∃ t : ℤ, value (bidTick book depth) = t :=
    Binary64.exists_value_min ⟨_, Binary64.value_round .toEven _⟩ ⟨_, htouch⟩
  obtain ⟨t, ht⟩ := hwhole
  rw [htouch, ht] at hle
  exact ⟨t, ht, Int.cast_le.mp hle⟩

private theorem exists_value_askTick {book : Book Float} (range : book.InRange) (depth : Float) :
    ∃ t : ℤ, value (askTick book depth) = t ∧ book.bestAsk ≤ t := by
  have htouch := Binary64.value_ofInt_of_abs_le range.abs_bestAsk_le
  have hle := (Binary64.le_iff.mp (bestAsk_le_askTick book depth)).2.2
  have hwhole : ∃ t : ℤ, value (askTick book depth) = t :=
    Binary64.exists_value_max ⟨_, Binary64.value_round .toEven _⟩ ⟨_, htouch⟩
  obtain ⟨t, ht⟩ := hwhole
  rw [htouch, ht] at hle
  exact ⟨t, ht, Int.cast_le.mp hle⟩

private theorem exists_value_tick {book : Book Float} (range : book.InRange) (q : Quote Float)
    (position : Float) (side : Side) :
    ∃ t : ℤ, value (q.tick book position side) = t ∧ book.IsPassive side t := by
  cases side with
  | buy => exact exists_value_bidTick range _
  | sell => exact exists_value_askTick range _

/-! ### Levels of a quote -/

/-- A whole number that is read back stays on its side of the touch. -/
theorem isPassive_readBack {book : Book Float} (range : book.InRange) {side : Side} {v : ℚ} {t : ℤ}
    (pos : 0 < v) (units : Binary64.InUnits v) (passive : book.IsPassive side t)
    (inside : |nearest (t * v)| < limit) : book.IsPassive side (Binary64.readBack v t) := by
  cases side with
  | buy => exact Binary64.readBack_le pos units passive range.abs_bestBid_le inside
  | sell => exact Binary64.le_readBack pos units passive range.abs_bestAsk_le inside

variable {params : RiskParams Float} {calibration : Calibration Float} {book : Book Float}
  {position : Float} {q : Quote Float} {side : Side} {level : OrderId}

/-- A quoted side has a whole tick on its side of the touch. The level is on that side too, and it
is the tick itself if that has up to 50 digits. -/
theorem exists_tick_of_level? (computed : Quote.around params calibration book position = .ok q)
    (range : book.InRange) (positive : Scalar.isPositive book.tickSize = true)
    (quoted : q.level? book.tickSize side = some level) :
    ∃ t : ℤ, value (q.tick book position side) = t ∧ book.IsPassive side level.tick ∧
      (|t| ≤ 2 ^ 50 → level.tick = t) := by
  obtain ⟨price, hprice, rfl⟩ := Option.map_eq_some_iff.mp quoted
  obtain ⟨-, hfinite, rfl⟩ := (on_eq_some_iff computed).mp hprice
  obtain ⟨-, hpos⟩ := Binary64.isPositive_iff.mp positive
  obtain ⟨htick, htickSize⟩ := Binary64.isFinite_of_isFinite_mul hfinite
  obtain ⟨t, ht, hpassive⟩ := exists_value_tick range q position side
  have hunits := Binary64.inUnits_value htickSize
  have hinside := (Binary64.isFinite_iff.mp hfinite).2
  rw [(Binary64.value_mul htick htickSize).2, ht] at hinside
  rw [OrderId.tick_ofPrice hfinite hpos ht]
  exact ⟨t, ht, isPassive_readBack range hpos hunits hpassive hinside,
    fun small ↦ Binary64.readBack_eq hpos hunits small hinside⟩

/-- The levels of a quote that was computed on a book in range, with a positive price of a tick. The
bid rests at the best bid or below, the ask at the best ask or above, so they never share a level.
The level of a side is its tick, as long as that has up to 50 digits. So the sides of any two such
quotes with one price of a tick share a level only if they have the same tick. -/
theorem levels_of_around (computed : Quote.around params calibration book position = .ok q)
    (range : book.InRange) (positive : Scalar.isPositive book.tickSize = true) :
    (∀ level, q.level? book.tickSize .buy = some level → level.tick ≤ book.bestBid) ∧
      (∀ level, q.level? book.tickSize .sell = some level → book.bestAsk ≤ level.tick) ∧
      (∀ level, q.level? book.tickSize .buy = some level →
        q.level? book.tickSize .sell ≠ some level) ∧
      (∀ side level, q.level? book.tickSize side = some level →
        ∃ t : ℤ, value (q.tick book position side) = t ∧ (|t| ≤ 2 ^ 50 → level.tick = t)) ∧
      ∀ params' calibration' (book' : Book Float) position' q',
        Quote.around params' calibration' book' position' = .ok q' → book'.InRange →
        book'.tickSize = book.tickSize → ∀ side side' level (t t' : ℤ),
        q.level? book.tickSize side = some level → q'.level? book.tickSize side' = some level →
        value (q.tick book position side) = t → value (q'.tick book' position' side') = t' →
        |t| ≤ 2 ^ 50 → |t'| ≤ 2 ^ 50 → t = t' := by
  have hbid : ∀ level, q.level? book.tickSize .buy = some level → level.tick ≤ book.bestBid := by
    intro level quoted
    obtain ⟨t, -, hpassive, -⟩ := exists_tick_of_level? computed range positive quoted
    exact hpassive
  have hask : ∀ level, q.level? book.tickSize .sell = some level →
      book.bestAsk ≤ level.tick := by
    intro level quoted
    obtain ⟨t, -, hpassive, -⟩ := exists_tick_of_level? computed range positive quoted
    exact hpassive
  refine ⟨hbid, hask, ?_, ?_, ?_⟩
  · intro level quoted quoted'
    have hbelow := hbid level quoted
    have habove := hask level quoted'
    have huncrossed := range.uncrossed
    omega
  · intro side level quoted
    obtain ⟨t, ht, -, hexact⟩ := exists_tick_of_level? computed range positive quoted
    exact ⟨t, ht, hexact⟩
  · intro params' calibration' book' position' q' computed' range' same side side' level t t' quoted
      quoted' ht ht' small small'
    have hpositive' : Scalar.isPositive book'.tickSize = true := same.symm ▸ positive
    obtain ⟨s, hs, -, hexact⟩ := exists_tick_of_level? computed range positive quoted
    obtain ⟨s', hs', -, hexact'⟩ :=
      exists_tick_of_level? computed' range' hpositive' (same.symm ▸ quoted')
    obtain rfl : s = t := Int.cast_injective (hs.symm.trans ht)
    obtain rfl : s' = t' := Int.cast_injective (hs'.symm.trans ht')
    exact (hexact small).symm.trans (hexact' small')

/-- A quote around a touch of 100 and 101. -/
theorem levels_of_around_touch :
    let params : RiskParams Float := ⟨0.1, 0.1, 1⟩
    let calibration : Calibration Float := ⟨1.5, 0.5, 2, some 0⟩
    let book : Book Float := .ofTouch 100 101 0.5
    let position : Float := -3
    ∃ q, Quote.around params calibration book position = .ok q ∧ book.InRange ∧
      Scalar.isPositive book.tickSize = true ∧
      (∀ level, q.level? book.tickSize .buy = some level → level.tick ≤ book.bestBid) ∧
      (∀ level, q.level? book.tickSize .sell = some level → book.bestAsk ≤ level.tick) ∧
      (∀ level, q.level? book.tickSize .buy = some level →
        q.level? book.tickSize .sell ≠ some level) ∧
      (∀ side level, q.level? book.tickSize side = some level →
        ∃ t : ℤ, value (q.tick book position side) = t ∧ (|t| ≤ 2 ^ 50 → level.tick = t)) ∧
      ∀ params' calibration' (book' : Book Float) position' q',
        Quote.around params' calibration' book' position' = .ok q' → book'.InRange →
        book'.tickSize = book.tickSize → ∀ side side' level (t t' : ℤ),
        q.level? book.tickSize side = some level → q'.level? book.tickSize side' = some level →
        value (q.tick book position side) = t → value (q'.tick book' position' side') = t' →
        |t| ≤ 2 ^ 50 → |t'| ≤ 2 ^ 50 → t = t' := by
  intro params calibration book position
  obtain ⟨q, hq⟩ := exists_around params calibration book position (by decide +kernel)
  have hrange : book.InRange := ⟨by decide, by decide, by decide⟩
  have hpositive : Scalar.isPositive book.tickSize = true := by decide +kernel
  exact ⟨q, hq, hrange, hpositive, levels_of_around hq hrange hpositive⟩

end Quote

end MarketMaking
