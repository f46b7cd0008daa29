import MarketMaking.Proofs.Binary64.Sum
import MarketMaking.Proofs.Binary64.Whole

/-!
# Operations on doubles that keep their order

Taking the smaller or the larger of two doubles keeps the order, as rounding to integers does. With
finite terms that are in order, sums are in the same order and differences in the opposite one. What
a finite term is added to need not be finite: then it swallows the term. No square root is negative.
-/

namespace MarketMaking.Binary64

open Float.Model Float.Model.UnpackedFloat

variable {x x' y y' : Float}

/-! ### The smaller and the larger -/

/-- The smaller of two known doubles is known and has the smaller value. -/
theorem value_min (hx : x.isNaN = false) (hy : y.isNaN = false) :
    (Scalar.min x y).isNaN = false ∧ value (Scalar.min x y) = min (value x) (value y) := by
  change (if (y.isNaN || Float.lt x y) = true then x else y).isNaN = false ∧
    value (if (y.isNaN || Float.lt x y) = true then x else y) = _
  rw [hy, Bool.false_or]
  split
  · next hlt => exact ⟨hx, (min_eq_left (lt_iff.mp hlt).2.2.le).symm⟩
  · next hlt =>
    have hle : value y ≤ value x := not_lt.mp fun lt ↦ hlt (lt_iff.mpr ⟨hx, hy, lt⟩)
    exact ⟨hy, (min_eq_right hle).symm⟩

/-- The larger of two known doubles is known and has the larger value. -/
theorem value_max (hx : x.isNaN = false) (hy : y.isNaN = false) :
    (Scalar.max x y).isNaN = false ∧ value (Scalar.max x y) = max (value x) (value y) := by
  change (if (y.isNaN || Float.lt y x) = true then x else y).isNaN = false ∧
    value (if (y.isNaN || Float.lt y x) = true then x else y) = _
  rw [hy, Bool.false_or]
  split
  · next hlt => exact ⟨hx, (max_eq_left (lt_iff.mp hlt).2.2.le).symm⟩
  · next hlt =>
    have hle : value x ≤ value y := not_lt.mp fun lt ↦ hlt (lt_iff.mpr ⟨hy, hx, lt⟩)
    exact ⟨hy, (max_eq_right hle).symm⟩

/-- The smaller of two whole doubles is whole. -/
theorem exists_value_min (hx : ∃ n : ℤ, value x = n) (hy : ∃ n : ℤ, value y = n) :
    ∃ n : ℤ, value (Scalar.min x y) = n := by
  have hone : Scalar.min x y = x ∨ Scalar.min x y = y := ite_eq_or_eq _ x y
  rcases hone with h | h
  · rw [h]
    exact hx
  · rw [h]
    exact hy

/-- The larger of two whole doubles is whole. -/
theorem exists_value_max (hx : ∃ n : ℤ, value x = n) (hy : ∃ n : ℤ, value y = n) :
    ∃ n : ℤ, value (Scalar.max x y) = n := by
  have hone : Scalar.max x y = x ∨ Scalar.max x y = y := ite_eq_or_eq _ x y
  rcases hone with h | h
  · rw [h]
    exact hx
  · rw [h]
    exact hy

/-- Taking the smaller double keeps the order. -/
theorem min_le_min (le : Float.le x x' = true) (hy : y.isNaN = false) :
    Float.le (Scalar.min x y) (Scalar.min x' y) = true := by
  obtain ⟨hx, hx', hle⟩ := le_iff.mp le
  obtain ⟨hknown, hvalue⟩ := value_min hx hy
  obtain ⟨hknown', hvalue'⟩ := value_min hx' hy
  refine le_iff.mpr ⟨hknown, hknown', ?_⟩
  rw [hvalue, hvalue']
  exact min_le_min_right _ hle

/-- Taking the larger double keeps the order. -/
theorem max_le_max (le : Float.le x x' = true) (hy : y.isNaN = false) :
    Float.le (Scalar.max x y) (Scalar.max x' y) = true := by
  obtain ⟨hx, hx', hle⟩ := le_iff.mp le
  obtain ⟨hknown, hvalue⟩ := value_max hx hy
  obtain ⟨hknown', hvalue'⟩ := value_max hx' hy
  refine le_iff.mpr ⟨hknown, hknown', ?_⟩
  rw [hvalue, hvalue']
  exact max_le_max_right _ hle

/-- The smaller of two doubles is not above the second one, when that is known. -/
theorem min_le (known : y.isNaN = false) :
    Float.le (Scalar.min x y) y = true := by
  show Float.le (if (y.isNaN || Float.lt x y) = true then x else y) y = true
  rw [known, Bool.false_or]
  split
  · next hlt =>
    obtain ⟨hx, hy, hvalue⟩ := lt_iff.mp hlt
    exact le_iff.mpr ⟨hx, hy, hvalue.le⟩
  · exact le_iff.mpr ⟨known, known, le_refl _⟩

/-- The larger of two doubles is not below the second one, when that is known. -/
theorem le_max (known : y.isNaN = false) :
    Float.le y (Scalar.max x y) = true := by
  show Float.le y (if (y.isNaN || Float.lt y x) = true then x else y) = true
  rw [known, Bool.false_or]
  split
  · next hlt =>
    obtain ⟨hy, hx, hvalue⟩ := lt_iff.mp hlt
    exact le_iff.mpr ⟨hy, hx, hvalue.le⟩
  · exact le_iff.mpr ⟨known, known, le_refl _⟩

/-! ### Rounding -/

/-- Rounding to integers keeps the order. -/
theorem round_le_round (tie : Tie) (le : Float.le x y = true) :
    Float.le (round tie x) (round tie y) = true := by
  obtain ⟨hx, hy, hle⟩ := le_iff.mp le
  refine le_iff.mpr ⟨(isNaN_round tie x).trans hx, (isNaN_round tie y).trans hy, ?_⟩
  rw [value_round, value_round]
  exact Int.cast_le.mpr (wholeNumber_mono tie hle)

/-! ### Sums, differences and products -/

private theorem add_of_isFinite_eq_false {f g : UnpackedFloat} (infinite : f.isFinite = false)
    (finite : g.isFinite = true) : add Format.binary64 f g = f := by
  cases f with
  | notANumber => rfl
  | infinity s =>
    cases g with
    | notANumber => cases finite
    | infinity t => cases finite
    | zero t => rfl
    | finite t n e pos => rfl
  | zero s => cases infinite
  | finite s m e pos => cases infinite

private theorem add_eq_add (infinite : x.isFinite = false) (hy : y.isFinite = true)
    (hy' : y'.isFinite = true) : x + y = x + y' := by
  have hunpacked := (add_of_isFinite_eq_false infinite hy).trans
    (add_of_isFinite_eq_false infinite hy').symm
  exact congrArg (fun f ↦ Float.ofModel (Float.Model.pack f)) hunpacked

private theorem sub_eq_sub (infinite : x.isFinite = false) (hy : y.isFinite = true)
    (hy' : y'.isFinite = true) : x - y = x - y' := by
  have hneg {y : Float} (finite : y.isFinite = true) :
      sub Format.binary64 x.toModel.unpack y.toModel.unpack = x.toModel.unpack := by
    rw [Unpacked.sub_eq_add_neg]
    exact add_of_isFinite_eq_false infinite (holds_neg (fits y).canonical finite).finite
  exact congrArg (fun f ↦ Float.ofModel (Float.Model.pack f)) ((hneg hy).trans (hneg hy').symm)

/-- Sums are in the order of their finite second terms. -/
theorem add_le_add_left (x : Float) (hy : y.isFinite = true) (hy' : y'.isFinite = true)
    (le : value y ≤ value y') : x + y = x + y' ∨ Float.le (x + y) (x + y') = true := by
  cases hx : x.isFinite
  · exact .inl (add_eq_add hx hy hy')
  · obtain ⟨hknown, hvalue⟩ := value_add hx hy
    obtain ⟨hknown', hvalue'⟩ := value_add hx hy'
    refine .inr (le_iff.mpr ⟨hknown, hknown', ?_⟩)
    rw [hvalue, hvalue']
    exact nearest_mono (by linarith)

/-- Differences are in the opposite order of what is subtracted, when that is finite. -/
theorem sub_le_sub_left (x : Float) (hy : y.isFinite = true) (hy' : y'.isFinite = true)
    (le : value y ≤ value y') : x - y' = x - y ∨ Float.le (x - y') (x - y) = true := by
  cases hx : x.isFinite
  · exact .inl (sub_eq_sub hx hy' hy)
  · obtain ⟨hknown, hvalue⟩ := value_sub hx hy
    obtain ⟨hknown', hvalue'⟩ := value_sub hx hy'
    refine .inr (le_iff.mpr ⟨hknown', hknown, ?_⟩)
    rw [hvalue, hvalue']
    exact nearest_mono (by linarith)

/-- A finite number that is not negative keeps the order of finite ones that it is multiplied by. -/
theorem value_mul_le (hx : x.isFinite = true) (nonneg : 0 ≤ value x) (hy : y.isFinite = true)
    (hy' : y'.isFinite = true) (le : value y ≤ value y') : value (x * y) ≤ value (x * y') := by
  rw [(value_mul hx hy).2, (value_mul hx hy').2]
  exact nearest_mono (mul_le_mul_of_nonneg_left le nonneg)

/-! ### Square roots -/

private theorem unpackedValue_ofFields_nonneg (field fraction : Nat) :
    0 ≤ unpackedValue (ofFields .positive field fraction) := by
  have hparts (m : Nat) (e : ℤ) : 0 ≤ unpackedValue (ofParts .positive m e) := by
    rw [unpackedValue_ofParts]
    exact mul_nonneg (Nat.cast_nonneg m) (zpow_pos two_pos e).le
  unfold ofFields
  split
  · split
    · exact limit_pos.le
    · exact le_refl 0
  · split
    · exact hparts _ _
    · exact hparts _ _

private theorem unpackedValue_repacked_nonneg (m : Nat) (e : ℤ) :
    0 ≤ unpackedValue (repacked (ofParts .positive m e)) := by
  have hcomponents (field : BitVec 11) (fraction : BitVec 52) : 0 ≤ unpackedValue
      (UnpackedFloat.unpack Format.binary64
        (packComponents Format.binary64 .positive field fraction)) := by
    rw [unpack_packComponents]
    exact unpackedValue_ofFields_nonneg _ _
  unfold repacked
  rcases m.eq_zero_or_pos with rfl | hpos
  · rw [ofParts_zero]
    exact hcomponents _ _
  · rw [ofParts_of_pos _ hpos, pack_finite]
    split
    · exact hcomponents _ _
    · split <;> exact hcomponents _ _

/-- No square root is negative. -/
theorem value_sqrt_nonneg (x : Float) : 0 ≤ value (Float.sqrt x) := by
  have hroot (f : UnpackedFloat) :
      0 ≤ unpackedValue (repacked (UnpackedFloat.sqrt Format.binary64 f)) := by
    cases f with
    | notANumber => exact le_refl 0
    | infinity s =>
      cases s
      · exact le_refl 0
      · exact limit_pos.le
    | zero s =>
      have hzero : repacked (.zero s) = .zero s := unpack_packComponents s _ _
      change 0 ≤ unpackedValue (repacked (.zero s))
      rw [hzero]
      exact le_refl 0
    | finite s m e pos =>
      cases s
      · change 0 ≤ unpackedValue (repacked .notANumber)
        exact le_refl 0
      · change 0 ≤ unpackedValue (repacked (roundWithAccuracy _ _ _ _ _))
        rw [roundWithAccuracy_eq _ rfl]
        exact unpackedValue_repacked_nonneg _ _
  rw [value_eq]
  exact hroot x.toModel.unpack

end MarketMaking.Binary64
