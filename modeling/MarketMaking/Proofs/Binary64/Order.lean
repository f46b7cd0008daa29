import MarketMaking.Binary64.Scalar
import MarketMaking.Proofs.Binary64.Packing

/-!
# Order and arithmetic of doubles

A double has a rational value, with the limit of doubles for infinity. Known doubles are compared by
their values, and arithmetic on finite doubles rounds the exact value. From that follows what quotes
rest on: multiplying by a positive number keeps the order, and so does taking doubles for integers.
-/

namespace MarketMaking.Binary64

open Float.Model Float.Model.UnpackedFloat

/-- The value of a double: the limit of doubles for infinity, and zero for the unknown number. -/
def value (x : Float) : ℚ :=
  match ofFloat x with
  | .nan => 0
  | .infinite negative => if negative then -limit else limit
  | .finite negative mantissa exponent =>
      if negative then -(mantissa * 2 ^ exponent) else mantissa * 2 ^ exponent

/-! ### Reading the fields -/

private theorem toNat_field (bits : UInt64) : ((bits >>> 52) &&& 0x7FF).toNat =
    (@unpackExponent Format.binary64 bits.toBitVec).toNat := by
  rw [toNat_unpackExponent, UInt64.toNat_and, UInt64.toNat_shiftRight, Nat.shiftRight_eq_div_pow]
  exact Nat.and_two_pow_sub_one_eq_mod _ 11

private theorem toNat_fraction (bits : UInt64) : (bits &&& 0xFFFFFFFFFFFFF).toNat =
    (@unpackMantissa Format.binary64 bits.toBitVec).toNat := by
  rw [toNat_unpackMantissa, UInt64.toNat_and]
  exact Nat.and_two_pow_sub_one_eq_mod _ 52

private theorem sign_eq (bits : UInt64) :
    Sign.ofBitVec (@unpackSign Format.binary64 bits.toBitVec) =
      if (bits >>> 63 == 1) = true then .negative else .positive := by
  have hlt : bits.toNat < 2 ^ 64 := bits.toNat_lt
  have hone : (bits >>> 63 == 1) = true ↔ bits.toNat / 2 ^ 63 = 1 := by
    rw [beq_iff_eq, ← UInt64.toNat_inj, UInt64.toNat_shiftRight, Nat.shiftRight_eq_div_pow]
    rfl
  rw [ofBitVec_unpackSign]
  change (if bits.toNat / 2 ^ 63 = 0 then _ else _) = _
  split
  · rw [if_neg (by rw [hone]; omega)]
  · rw [if_pos (by rw [hone]; omega)]

/-- The parts of an unpacked double. -/
def parts : UnpackedFloat → Binary64
  | .notANumber => .nan
  | .infinity s => .infinite (s == .negative)
  | .zero s => .finite (s == .negative) 0 minExponent
  | .finite s m e _ => .finite (s == .negative) m e

private theorem parts_ofParts (s : Sign) {m : Nat} {e : ℤ} (least : m = 0 → e = minExponent) :
    parts (ofParts s m e) = .finite (s == .negative) m e := by
  rcases Nat.eq_zero_or_pos m with rfl | pos
  · rw [ofParts_zero, least rfl]
    rfl
  · rw [ofParts_of_pos s pos]
    rfl

/-- Reading the parts off the bits of a double is unpacking it. -/
theorem ofFloat_eq (x : Float) : ofFloat x = parts x.toModel.unpack := by
  change ofFloat x = parts (UnpackedFloat.unpack Format.binary64 x.toBits.toBitVec)
  rw [unpack_eq_ofFields, sign_eq]
  unfold ofFloat ofFields
  simp only [toNat_field, toNat_fraction]
  generalize (@unpackExponent Format.binary64 x.toBits.toBitVec).toNat = field
  generalize (@unpackMantissa Format.binary64 x.toBits.toBitVec).toNat = fraction
  generalize (x.toBits >>> 63 == 1) = negative
  by_cases hlast : field = 2047
  · rw [if_pos hlast, if_pos hlast]
    by_cases hzero : fraction = 0
    · rw [if_pos hzero, if_pos hzero]
      cases negative <;> rfl
    · rw [if_neg hzero, if_neg hzero]
      rfl
  · rw [if_neg hlast, if_neg hlast]
    by_cases hfirst : field = 0
    · rw [if_pos hfirst, if_pos hfirst, parts_ofParts (e := -1074) _ fun _ ↦ rfl]
      cases negative <;> rfl
    · have hexponent : minExponent + ((field : ℤ) - 1) = field - 1075 := by
        unfold minExponent
        omega
      rw [if_neg hfirst, if_neg hfirst, parts_ofParts _ (by omega), ← hexponent]
      cases negative <;> rfl

/-- The parts of a double, read off its bits or unpacked, have the same value. -/
theorem value_eq (x : Float) : value x = unpackedValue x.toModel.unpack := by
  unfold value
  rw [ofFloat_eq]
  cases x.toModel.unpack with
  | notANumber => rfl
  | infinity s => cases s <;> rfl
  | zero s =>
    have hzero : ((0 : ℕ) : ℚ) * 2 ^ minExponent = 0 := by rw [Nat.cast_zero, zero_mul]
    cases s with
    | positive => exact hzero
    | negative => exact neg_eq_zero.mpr hzero
  | finite s m e hm => cases s <;> rfl

/-! ### Comparing -/

private theorem mul_lt_mul_of_exponent_lt {m n : Nat} {e f : ℤ} (hm : m < 2 ^ 53)
    (bound : -1074 ≤ e) (hn : 2 ^ 52 ≤ n ∨ f = -1074) (lt : e < f) :
    (m : ℚ) * 2 ^ e < n * 2 ^ f := by
  have hm' : (m : ℚ) < 2 ^ 53 := by exact_mod_cast hm
  have hn' : (2 ^ 52 : ℚ) ≤ n := by exact_mod_cast hn.resolve_right (by omega)
  have hpow : (2 : ℚ) ^ (e + 1) ≤ 2 ^ f := zpow_le_zpow_right₀ one_le_two lt
  have hpos : (0 : ℚ) < 2 ^ e := zpow_pos two_pos e
  calc (m : ℚ) * 2 ^ e < 2 ^ 53 * 2 ^ e := mul_lt_mul_of_pos_right hm' hpos
    _ = 2 ^ 52 * 2 ^ (e + 1) := by rw [zpow_add_one₀ two_ne_zero]; ring
    _ ≤ n * 2 ^ f := mul_le_mul hn' hpow (zpow_pos two_pos _).le (Nat.cast_nonneg n)

private theorem compare_parts {m n : Nat} {e f : ℤ}
    (hm : m < 2 ^ 53 ∧ -1074 ≤ e ∧ (2 ^ 52 ≤ m ∨ e = -1074))
    (hn : n < 2 ^ 53 ∧ -1074 ≤ f ∧ (2 ^ 52 ≤ n ∨ f = -1074)) :
    (compare e f).then (compare m n) = cmp ((m : ℚ) * 2 ^ e) (n * 2 ^ f) := by
  rcases lt_trichotomy e f with hlt | rfl | hgt
  · rw [Int.compare_eq_lt.mpr hlt,
      (cmp_eq_lt_iff _ _).mpr (mul_lt_mul_of_exponent_lt hm.1 hm.2.1 hn.2.2 hlt)]
    rfl
  · have hpos : (0 : ℚ) < 2 ^ e := zpow_pos two_pos e
    rw [Int.compare_eq_eq.mpr rfl]
    change compare m n = _
    rcases lt_trichotomy m n with hlt | rfl | hgt
    · rw [Nat.compare_eq_lt.mpr hlt,
        (cmp_eq_lt_iff _ _).mpr (mul_lt_mul_of_pos_right (Nat.cast_lt.mpr hlt) hpos)]
    · rw [Nat.compare_eq_eq.mpr rfl, cmp_self_eq_eq]
    · rw [Nat.compare_eq_gt.mpr hgt,
        (cmp_eq_gt_iff _ _).mpr (mul_lt_mul_of_pos_right (Nat.cast_lt.mpr hgt) hpos)]
  · rw [Int.compare_eq_gt.mpr hgt,
      (cmp_eq_gt_iff _ _).mpr (mul_lt_mul_of_exponent_lt hn.1 hn.2.1 hm.2.2 hgt)]
    rfl

private theorem some_lt_eq_cmp {q r : ℚ} (lt : q < r) : some Ordering.lt = some (cmp q r) := by
  rw [(cmp_eq_lt_iff q r).mpr lt]

private theorem some_gt_eq_cmp {q r : ℚ} (gt : r < q) : some Ordering.gt = some (cmp q r) := by
  rw [(cmp_eq_gt_iff q r).mpr gt]

private theorem some_eq_eq_cmp (q : ℚ) : some Ordering.eq = some (cmp q q) := by
  rw [cmp_self_eq_eq]

private theorem exists_eq_infinity {f : UnpackedFloat} (known : f.isNaN = false)
    (infinite : f.isFinite = false) : ∃ s, f = .infinity s := by
  cases f with
  | notANumber => cases known
  | infinity s => exact ⟨s, rfl⟩
  | zero s => cases infinite
  | finite s m e hm => cases infinite

private theorem compare_infinity {g : UnpackedFloat} (s : Sign) (fits : Fits g)
    (finite : g.isFinite = true) :
    (UnpackedFloat.infinity s).compare g = some (cmp (signed s limit) (unpackedValue g)) ∧
      g.compare (.infinity s) = some (cmp (unpackedValue g) (signed s limit)) := by
  obtain ⟨hlow, hhigh⟩ := abs_lt.mp (fits.abs_lt finite)
  cases s
  · change _ = some (cmp (-limit) _) ∧ _ = some (cmp _ (-limit))
    rw [← some_lt_eq_cmp hlow, ← some_gt_eq_cmp hlow]
    cases g with
    | notANumber => cases finite
    | infinity t => cases finite
    | zero t => exact ⟨rfl, rfl⟩
    | finite t n f hn => cases t <;> exact ⟨rfl, rfl⟩
  · change _ = some (cmp limit _) ∧ _ = some (cmp _ limit)
    rw [← some_gt_eq_cmp hhigh, ← some_lt_eq_cmp hhigh]
    cases g with
    | notANumber => cases finite
    | infinity t => cases finite
    | zero t => exact ⟨rfl, rfl⟩
    | finite t n f hn => cases t <;> exact ⟨rfl, rfl⟩

private theorem compare_finite {f g : UnpackedFloat} (hf : Canonical f) (hg : Canonical g)
    (finiteLeft : f.isFinite = true) (finiteRight : g.isFinite = true) :
    f.compare g = some (cmp (unpackedValue f) (unpackedValue g)) := by
  have hpos {m : Nat} (e : ℤ) (pos : 0 < m) : (0 : ℚ) < m * 2 ^ e :=
    mul_pos (Nat.cast_pos.mpr pos) (zpow_pos two_pos e)
  cases f with
  | notANumber => cases finiteLeft
  | infinity s => cases finiteLeft
  | zero s =>
    cases g with
    | notANumber => cases finiteRight
    | infinity t => cases finiteRight
    | zero t => exact some_eq_eq_cmp 0
    | finite t n f hn =>
      cases t
      · exact some_gt_eq_cmp (neg_lt_zero.mpr (hpos f hn))
      · exact some_lt_eq_cmp (hpos f hn)
  | finite s m e hm =>
    cases g with
    | notANumber => cases finiteRight
    | infinity t => cases finiteRight
    | zero t =>
      cases s
      · exact some_lt_eq_cmp (neg_lt_zero.mpr (hpos e hm))
      · exact some_gt_eq_cmp (hpos e hm)
    | finite t n f hn =>
      cases s <;> cases t
      · change some ((compare e f).then (compare m n)).swap = some (cmp (-_) (-_))
        rw [compare_parts hf hg, cmp_swap, StrictAnti.cmp_map_eq (fun _ _ ↦ neg_lt_neg)]
      · exact some_lt_eq_cmp ((neg_lt_zero.mpr (hpos e hm)).trans (hpos f hn))
      · exact some_gt_eq_cmp ((neg_lt_zero.mpr (hpos f hn)).trans (hpos e hm))
      · exact congrArg some (compare_parts hf hg)

private theorem compare_eq_cmp {f g : UnpackedFloat} (hf : Fits f) (hg : Fits g)
    (knownLeft : f.isNaN = false) (knownRight : g.isNaN = false) :
    f.compare g = some (cmp (unpackedValue f) (unpackedValue g)) := by
  have hlimit := limit_pos
  cases hleft : f.isFinite
  · obtain ⟨s, rfl⟩ := exists_eq_infinity knownLeft hleft
    cases hright : g.isFinite
    · obtain ⟨t, rfl⟩ := exists_eq_infinity knownRight hright
      cases s <;> cases t
      · exact some_eq_eq_cmp (-limit)
      · exact some_lt_eq_cmp (by unfold unpackedValue signed; linarith)
      · exact some_gt_eq_cmp (by unfold unpackedValue signed; linarith)
      · exact some_eq_eq_cmp limit
    · exact (compare_infinity s hg hright).1
  · cases hright : g.isFinite
    · obtain ⟨t, rfl⟩ := exists_eq_infinity knownRight hright
      exact (compare_infinity t hf hleft).2
    · exact compare_finite hf.canonical hg.canonical hleft hright

/-! ### Doubles -/

theorem fits (x : Float) : Fits x.toModel.unpack := fits_unpack _

private theorem abs_infinity (s : Sign) : |unpackedValue (.infinity s)| = limit := by
  unfold unpackedValue
  rw [abs_signed, abs_of_pos limit_pos]

/-- A double is finite if it is known and its value is inside the limits. -/
theorem isFinite_iff {x : Float} :
    x.isFinite = true ↔ x.isNaN = false ∧ |value x| < limit := by
  have habs := (fits x).abs_lt
  rw [value_eq]
  change x.toModel.unpack.isFinite = true ↔ x.toModel.unpack.isNaN = false ∧ _
  generalize x.toModel.unpack = f at habs ⊢
  constructor
  · intro finite
    refine ⟨?_, habs finite⟩
    cases f with
    | notANumber => cases finite
    | _ => rfl
  · rintro ⟨known, hlt⟩
    cases hf : f.isFinite
    · obtain ⟨s, rfl⟩ := exists_eq_infinity known hf
      rw [abs_infinity] at hlt
      exact absurd hlt (lt_irrefl _)
    · rfl

/-- No double is beyond the limits. -/
theorem abs_value_le (x : Float) : |value x| ≤ limit := by
  have habs := (fits x).abs_lt
  rw [value_eq]
  cases hx : x.toModel.unpack with
  | notANumber =>
    unfold unpackedValue
    rw [abs_zero]
    exact limit_pos.le
  | infinity s => rw [abs_infinity]
  | zero s =>
    rw [hx] at habs
    exact (habs rfl).le
  | finite s m e hm =>
    rw [hx] at habs
    exact (habs rfl).le

private theorem compare_eq_none {f g : UnpackedFloat} (unknown : f.isNaN = true ∨ g.isNaN = true) :
    f.compare g = none := by
  cases f with
  | notANumber => rfl
  | infinity s =>
    cases g with
    | notANumber => cases s <;> rfl
    | _ => rcases unknown with h | h <;> cases h
  | zero s =>
    cases g with
    | notANumber => rfl
    | _ => rcases unknown with h | h <;> cases h
  | finite s m e hm =>
    cases g with
    | notANumber => cases s <;> rfl
    | _ => rcases unknown with h | h <;> cases h

/-- A double is below another if both are known and their values are in that order. -/
theorem lt_iff {x y : Float} :
    Float.lt x y = true ↔ x.isNaN = false ∧ y.isNaN = false ∧ value x < value y := by
  have hlt : Float.lt x y = true ↔
      x.toModel.unpack.compare y.toModel.unpack = some Ordering.lt := by
    unfold Float.lt
    rw [decide_eq_true_iff]
    change (x.toModel.unpack.compare y.toModel.unpack == some Ordering.lt) = true ↔ _
    rw [beq_iff_eq]
  rw [hlt, value_eq, value_eq]
  change _ ↔ x.toModel.unpack.isNaN = false ∧ y.toModel.unpack.isNaN = false ∧ _
  cases hx : x.toModel.unpack.isNaN
  · cases hy : y.toModel.unpack.isNaN
    · rw [compare_eq_cmp (fits x) (fits y) hx hy, Option.some_inj, cmp_eq_lt_iff]
      exact ⟨fun hlt ↦ ⟨rfl, rfl, hlt⟩, fun h ↦ h.2.2⟩
    · rw [compare_eq_none (.inr hy)]
      refine ⟨?_, fun h ↦ Bool.noConfusion h.2.1⟩
      intro hnone
      cases hnone
  · rw [compare_eq_none (.inl hx)]
    refine ⟨?_, fun h ↦ Bool.noConfusion h.1⟩
    intro hnone
    cases hnone

/-- A double is not above another if both are known and their values are not. -/
theorem le_iff {x y : Float} :
    Float.le x y = true ↔ x.isNaN = false ∧ y.isNaN = false ∧ value x ≤ value y := by
  have hle : Float.le x y = true ↔
      (x.toModel.unpack.compare y.toModel.unpack).any Ordering.isLE = true := by
    unfold Float.le
    rw [decide_eq_true_iff]
    rfl
  rw [hle, value_eq, value_eq]
  change _ ↔ x.toModel.unpack.isNaN = false ∧ y.toModel.unpack.isNaN = false ∧ _
  cases hx : x.toModel.unpack.isNaN
  · cases hy : y.toModel.unpack.isNaN
    · have hcmp : (cmp (unpackedValue x.toModel.unpack)
          (unpackedValue y.toModel.unpack)).isLE = true ↔
            unpackedValue x.toModel.unpack ≤ unpackedValue y.toModel.unpack := by
        rw [← not_lt, ← cmp_eq_gt_iff]
        cases cmp (unpackedValue x.toModel.unpack) (unpackedValue y.toModel.unpack) <;> decide
      rw [compare_eq_cmp (fits x) (fits y) hx hy, Option.any_some, hcmp]
      exact ⟨fun hle ↦ ⟨rfl, rfl, hle⟩, fun h ↦ h.2.2⟩
    · rw [compare_eq_none (.inr hy)]
      exact ⟨Bool.noConfusion, fun h ↦ Bool.noConfusion h.2.1⟩
  · rw [compare_eq_none (.inl hx)]
    exact ⟨Bool.noConfusion, fun h ↦ Bool.noConfusion h.1⟩

/-- Doubles are equal if both are known and have the same value. -/
theorem beq_iff {x y : Float} :
    Float.beq x y = true ↔ x.isNaN = false ∧ y.isNaN = false ∧ value x = value y := by
  have hbeq : Float.beq x y = true ↔ Float.le x y = true ∧ ¬ Float.lt x y = true := by
    unfold Float.le Float.lt
    rw [decide_eq_true_iff, decide_eq_true_iff]
    change (x.toModel.unpack.compare y.toModel.unpack == some Ordering.eq) = true ↔
      (x.toModel.unpack.compare y.toModel.unpack).any Ordering.isLE = true ∧
        ¬ (x.toModel.unpack.compare y.toModel.unpack == some Ordering.lt) = true
    cases x.toModel.unpack.compare y.toModel.unpack with
    | none => decide
    | some order => cases order <;> decide
  rw [hbeq, le_iff, lt_iff]
  constructor
  · rintro ⟨⟨hx, hy, hle⟩, hlt⟩
    exact ⟨hx, hy, hle.eq_of_not_lt fun lt ↦ hlt ⟨hx, hy, lt⟩⟩
  · rintro ⟨hx, hy, heq⟩
    exact ⟨⟨hx, hy, heq.le⟩, fun lt ↦ heq.not_lt lt.2.2⟩

/-! ### Arithmetic -/

/-- What is packed from a finite number in canonical form is known, with the value limited to the
range of doubles. -/
theorem value_ofModel_pack {f : UnpackedFloat} {q : ℚ} (holds : Holds f q) :
    (Float.ofModel (Float.Model.pack f)).isNaN = false ∧
      value (Float.ofModel (Float.Model.pack f)) = clamp q := by
  rw [value_eq]
  exact unpack_pack holds

private theorem value_ofModel_infinity (s : Sign) :
    (Float.ofModel (Float.Model.pack (.infinity s))).isNaN = false ∧
      value (Float.ofModel (Float.Model.pack (.infinity s))) = signed s limit := by
  have hunpack : (Float.ofModel (Float.Model.pack (.infinity s))).toModel.unpack = .infinity s :=
    unpack_packComponents s _ _
  rw [value_eq]
  unfold Float.isNaN Float.Model.isNaN
  rw [hunpack]
  exact ⟨rfl, rfl⟩

/-- The product of finite doubles is known and is the exact product rounded. -/
theorem value_mul {x y : Float} (hx : x.isFinite = true) (hy : y.isFinite = true) :
    (x * y).isNaN = false ∧ value (x * y) = nearest (value x * value y) := by
  rw [value_eq x, value_eq y]
  exact value_ofModel_pack (holds_mul (fits x).canonical (fits y).canonical hx hy)

/-- The negative of a known double is known and has the negative value. -/
theorem value_neg {x : Float} (known : x.isNaN = false) :
    (-x).isNaN = false ∧ value (-x) = -value x := by
  cases hx : x.isFinite
  · have hneg : -x = Float.ofModel (Float.Model.pack x.toModel.unpack.neg) := rfl
    rw [hneg, value_eq x]
    change x.toModel.unpack.isNaN = false at known
    change x.toModel.unpack.isFinite = false at hx
    obtain ⟨s, hs⟩ := exists_eq_infinity known hx
    rw [hs]
    cases s
    · have hvalue := value_ofModel_infinity .positive
      rw [← neg_neg (signed .positive limit)] at hvalue
      exact hvalue
    · exact value_ofModel_infinity .negative
  · have hneg := value_ofModel_pack (holds_neg (fits x).canonical hx)
    rw [← value_eq, clamp_neg, clamp_of_abs_le (abs_value_le x)] at hneg
    exact hneg

private theorem value_mul_of_infinite {x y : Float} (known : x.isNaN = false)
    (hx : x.isFinite = false) (hy : y.isFinite = true) (pos : 0 < value y) :
    (x * y).isNaN = false ∧ value (x * y) = value x := by
  rw [value_eq x]
  rw [value_eq] at pos
  change x.toModel.unpack.isNaN = false at known
  change x.toModel.unpack.isFinite = false at hx
  change y.toModel.unpack.isFinite = true at hy
  have hmul : x * y = Float.ofModel (Float.Model.pack
    (UnpackedFloat.mul Format.binary64 x.toModel.unpack y.toModel.unpack)) := rfl
  rw [hmul]
  obtain ⟨s, hs⟩ := exists_eq_infinity known hx
  rw [hs]
  cases hyu : y.toModel.unpack with
  | notANumber =>
    rw [hyu] at hy
    cases hy
  | infinity t =>
    rw [hyu] at hy
    cases hy
  | zero t =>
    rw [hyu] at pos
    exact absurd pos (lt_irrefl _)
  | finite t n f hn =>
    rw [hyu] at pos
    have hsign : t = .positive := by
      cases t
      · have hn' : (0 : ℚ) < n * 2 ^ f := mul_pos (Nat.cast_pos.mpr hn) (zpow_pos two_pos f)
        exact absurd pos (not_lt.mpr (neg_nonpos.mpr hn'.le))
      · rfl
    have hproduct : s * t = s := by
      rw [hsign]
      cases s <;> rfl
    change (Float.ofModel (Float.Model.pack (.infinity (s * t)))).isNaN = false ∧
      value (Float.ofModel (Float.Model.pack (.infinity (s * t)))) = _
    rw [hproduct]
    exact value_ofModel_infinity s

private theorem isNaN_mul {x y : Float} (known : x.isNaN = false) (hy : y.isFinite = true)
    (pos : 0 < value y) : (x * y).isNaN = false := by
  cases hx : x.isFinite
  · exact (value_mul_of_infinite known hx hy pos).1
  · exact (value_mul hx hy).1

/-- A known double that is not finite is at one of the limits. -/
theorem value_of_infinite {x : Float} (known : x.isNaN = false) (hx : x.isFinite = false) :
    value x = limit ∨ value x = -limit := by
  have habs : ¬ |value x| < limit := by
    intro hlt
    rw [isFinite_iff.mpr ⟨known, hlt⟩] at hx
    cases hx
  have heq : |value x| = limit := le_antisymm (abs_value_le x) (not_lt.mp habs)
  exact eq_or_eq_neg_of_abs_eq heq

/-- Multiplying by a positive finite double keeps the order. -/
theorem mul_le_mul_of_pos {x y t : Float} (le : Float.le x y = true) (ht : t.isFinite = true)
    (pos : 0 < value t) : Float.le (x * t) (y * t) = true := by
  obtain ⟨hx, hy, hle⟩ := le_iff.mp le
  refine le_iff.mpr ⟨isNaN_mul hx ht pos, isNaN_mul hy ht pos, ?_⟩
  obtain ⟨hxt, hxt'⟩ := abs_le.mp (abs_value_le (x * t))
  obtain ⟨hyt, hyt'⟩ := abs_le.mp (abs_value_le (y * t))
  cases hxf : x.isFinite
  · rcases value_of_infinite hx hxf with hlimit | hlimit
    · -- Then the larger one is at the upper limit too.
      have hyl : value y = limit := le_antisymm (abs_le.mp (abs_value_le y)).2 (hlimit ▸ hle)
      have hyf : y.isFinite = false := by
        cases hyf : y.isFinite
        · rfl
        · have hlt := (isFinite_iff.mp hyf).2
          rw [hyl, abs_of_pos limit_pos] at hlt
          exact absurd hlt (lt_irrefl _)
      rw [(value_mul_of_infinite hx hxf ht pos).2, (value_mul_of_infinite hy hyf ht pos).2]
      exact hle
    · rw [(value_mul_of_infinite hx hxf ht pos).2, hlimit]
      exact hyt
  · cases hyf : y.isFinite
    · rcases value_of_infinite hy hyf with hlimit | hlimit
      · rw [(value_mul_of_infinite hy hyf ht pos).2, hlimit]
        exact hxt'
      · have hlt := (abs_lt.mp (isFinite_iff.mp hxf).2).1
        rw [hlimit] at hle
        exact absurd hlt (not_lt.mpr hle)
    · rw [(value_mul hxf ht).2, (value_mul hyf ht).2]
      exact nearest_mono (mul_le_mul_of_nonneg_right hle pos.le)

/-! ### Integers -/

/-- Integers of at most 53 digits are doubles. -/
theorem nearest_natCast {n : Nat} (lt : n < 2 ^ 53) : nearest n = n := by
  have hgrid : gridExponent n ≤ 0 := by
    have hlog : Nat.log 2 n < 53 := Nat.log_lt_of_lt_pow' (by decide) lt
    unfold gridExponent
    rw [Nat.abs_cast, Int.log_natCast]
    omega
  have hunits : (n : ℚ) = ((n * 2 ^ (-gridExponent n).toNat : ℤ) : ℚ) * 2 ^ gridExponent n := by
    push_cast
    rw [mul_assoc, ← zpow_natCast, Int.toNat_of_nonneg (by omega), ← zpow_add₀ two_ne_zero,
      neg_add_cancel, zpow_zero, mul_one]
  have hlt : (n : ℚ) < 2 ^ 53 := by exact_mod_cast lt
  have hlimit : (2 : ℚ) ^ 53 ≤ limit := pow_le_pow_right₀ one_le_two (by decide)
  unfold nearest
  rw [onGrid_of_eq_mul _ hunits]
  apply clamp_of_abs_le
  rw [Nat.abs_cast]
  exact hlt.le.trans hlimit

private theorem holds_ofScientific {n : Nat} (pos : 0 < n) :
    Holds (UnpackedFloat.ofScientific Format.binary64 n 0) (onGrid n) := by
  have hshifted : 0 < n <<< 53 := by
    rw [Nat.shiftLeft_eq]
    exact Nat.mul_pos pos (Nat.two_pow_pos 53)
  have hvalue : ((n <<< 53 * 10 ^ 0 : ℕ) : ℚ) * 2 ^ (-53 + 0 : ℤ) = n := by
    rw [Nat.shiftLeft_eq, pow_zero, mul_one, add_zero]
    push_cast
    rw [mul_assoc]
    norm_num
  have hproduct : signed .positive (((n <<< 53 : ℕ) : ℚ) * 2 ^ (-53 : ℤ)) *
      signed .positive (((10 ^ 0 : ℕ) : ℚ) * 2 ^ (0 : ℤ)) = n := by
    rw [← signed_mul]
    change ((n <<< 53 : ℕ) : ℚ) * 2 ^ (-53 : ℤ) * (((10 ^ 0 : ℕ) : ℚ) * 2 ^ (0 : ℤ)) = n
    rw [← hvalue]
    push_cast
    ring
  have henough : (-53 + 0 : ℤ) ≤ gridExponent ((n <<< 53 * 10 ^ 0 : ℕ) * 2 ^ (-53 + 0 : ℤ)) := by
    rw [hvalue]
    unfold gridExponent
    rw [Nat.abs_cast, Int.log_natCast]
    omega
  have hten : 0 < 10 ^ 0 := Nat.pow_pos (by decide)
  have hholds := holds_mul_finite .positive .positive hshifted hten henough
  rw [hproduct] at hholds
  have hsmall : (0 : ℤ) ≤ 2 ^ Format.binary64.exponentBits := pow_nonneg (by decide) _
  unfold UnpackedFloat.ofScientific
  rw [dif_neg pos.ne', if_neg (by decide), if_neg (by omega), if_pos (le_refl 0)]
  exact hholds

/-- The double for one. -/
theorem value_one :
    (Float.ofBits 0x3FF0000000000000).isFinite = true ∧
      value (Float.ofBits 0x3FF0000000000000) = 1 := by
  have hparts : ofFloat (Float.ofBits 0x3FF0000000000000) = .finite false (2 ^ 52) (-52) := by
    decide +kernel
  refine ⟨by decide +kernel, ?_⟩
  unfold value
  rw [hparts]
  norm_num

/-- The double for a natural number is the one nearest to it. -/
theorem value_ofNat (n : Nat) :
    (Float.ofNat n).isNaN = false ∧ value (Float.ofNat n) = nearest n := by
  change (Float.ofScientific n false 0).isNaN = false ∧ value (Float.ofScientific n false 0) = _
  unfold Float.ofScientific
  by_cases hsmall : n < 2 ^ 53
  · have hword : n.toUInt64.toNat = n := by
      change n % 2 ^ 64 = n
      omega
    have hexact := nearest_natCast hsmall
    have hconverted : n.toUInt64.toFloat.isNaN = false ∧
        value n.toUInt64.toFloat = nearest ((n.toUInt64.toNat : ℤ) * 2 ^ (0 : ℤ)) :=
      value_ofModel_pack (holds_normalize n.toUInt64.toNat 0 .positive)
    obtain ⟨hknown, hvalue⟩ := hconverted
    rw [hword, zpow_zero, mul_one, Int.cast_natCast, hexact] at hvalue
    have hlt : (n : ℚ) < 2 ^ 53 := by exact_mod_cast hsmall
    have hlimit : (2 : ℚ) ^ 53 ≤ limit := pow_le_pow_right₀ one_le_two (by decide)
    have hfinite : n.toUInt64.toFloat.isFinite = true := by
      rw [isFinite_iff, hvalue, Nat.abs_cast]
      exact ⟨hknown, hlt.trans_le hlimit⟩
    rw [dif_pos ⟨hsmall, by decide⟩]
    change (n.toUInt64.toFloat * Float.ofBits 0x3FF0000000000000).isNaN = false ∧
      value (n.toUInt64.toFloat * Float.ofBits 0x3FF0000000000000) = nearest n
    have hproduct := value_mul hfinite value_one.1
    rw [hvalue, value_one.2, mul_one, hexact] at hproduct
    rw [hexact]
    exact hproduct
  · rw [dif_neg (fun h ↦ hsmall h.1)]
    exact value_ofModel_pack (holds_ofScientific (by omega))

/-- The double for an integer is the one nearest to it. -/
theorem value_ofInt (n : ℤ) :
    (Float.ofInt n).isNaN = false ∧ value (Float.ofInt n) = nearest n := by
  cases n with
  | ofNat n => exact value_ofNat n
  | negSucc n =>
    obtain ⟨hknown, hvalue⟩ := value_ofNat (n + 1)
    have hneg := value_neg hknown
    rw [hvalue, ← nearest_neg] at hneg
    rw [Int.cast_negSucc]
    exact hneg

/-- The double for an integer of up to 50 digits has it as its value. -/
theorem value_ofInt_of_abs_le {n : ℤ} (small : |n| ≤ 2 ^ 50) : value (Float.ofInt n) = n := by
  obtain ⟨hlow, hhigh⟩ := abs_le.mp small
  rw [(value_ofInt n).2]
  cases n with
  | ofNat n =>
    rw [Int.ofNat_eq_natCast] at hhigh
    exact nearest_natCast (by omega)
  | negSucc n => rw [Int.cast_negSucc, nearest_neg, nearest_natCast (by omega)]

/-- Taking doubles for integers keeps the order. -/
theorem ofInt_le_ofInt {m n : ℤ} (le : m ≤ n) :
    Float.le (Float.ofInt m) (Float.ofInt n) = true := by
  obtain ⟨hm, hmv⟩ := value_ofInt m
  obtain ⟨hn, hnv⟩ := value_ofInt n
  refine le_iff.mpr ⟨hm, hn, ?_⟩
  rw [hmv, hnv]
  exact nearest_mono (Int.cast_le.mpr le)

/-- A positive double is known and has a positive value. -/
theorem isPositive_iff {x : Float} :
    Scalar.isPositive x = true ↔ x.isNaN = false ∧ 0 < value x := by
  obtain ⟨hknown, hvalue⟩ := value_ofInt 0
  rw [Int.cast_zero, nearest_zero] at hvalue
  change Float.lt (Float.ofInt 0) x = true ↔ _
  rw [lt_iff, hvalue]
  exact and_iff_right hknown

/-- A double that is not below zero is known and has no negative value. -/
theorem zero_le_iff {x : Float} :
    Scalar.le Scalar.zero x = true ↔ x.isNaN = false ∧ 0 ≤ value x := by
  obtain ⟨hknown, hvalue⟩ := value_ofInt 0
  rw [Int.cast_zero, nearest_zero] at hvalue
  change Float.le (Float.ofInt 0) x = true ↔ _
  rw [le_iff, hvalue]
  exact and_iff_right hknown

end MarketMaking.Binary64
