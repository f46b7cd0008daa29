import MarketMaking.Proofs.Binary64.Rounding

/-!
# Packing of doubles

A double packs a sign, a field for the exponent and a field for the fraction into 64 bits. What is
unpacked is in canonical form and in the range of doubles, and packing a number in canonical form
limits it to that range.
-/

namespace MarketMaking.Binary64

open Float.Model Float.Model.UnpackedFloat

/-! ### Fields -/

/-- The unpacked double with the given fields. -/
def ofFields (s : Sign) (field fraction : Nat) : UnpackedFloat :=
  if field = 2047 then if fraction = 0 then .infinity s else .notANumber
  else if field = 0 then ofParts s fraction (-1074)
  else ofParts s (fraction + 2 ^ 52) (field - 1075)

/-- The exponent field of some bits. -/
theorem toNat_unpackExponent (b : BitVec Format.binary64.numBits) :
    (unpackExponent b).toNat = b.toNat / 2 ^ 52 % 2 ^ 11 := by
  unfold unpackExponent
  rw [BitVec.toNat_cast, BitVec.extractLsb_toNat, Nat.shiftRight_eq_div_pow]
  rfl

/-- The fraction field of some bits. -/
theorem toNat_unpackMantissa (b : BitVec Format.binary64.numBits) :
    (unpackMantissa b).toNat = b.toNat % 2 ^ 52 := by
  unfold unpackMantissa
  rw [BitVec.toNat_cast, BitVec.extractLsb_toNat, Nat.shiftRight_zero]
  rfl

/-- The sign of some bits. -/
theorem ofBitVec_unpackSign (b : BitVec Format.binary64.numBits) :
    Sign.ofBitVec (unpackSign b) = if b.toNat / 2 ^ 63 = 0 then .positive else .negative := by
  have htoNat : (unpackSign b).toNat = b.toNat / 2 ^ 63 := by
    unfold unpackSign
    have hlt : b.toNat < 2 ^ 64 := b.isLt
    rw [BitVec.toNat_cast, BitVec.extractLsb_toNat, Nat.shiftRight_eq_div_pow]
    show b.toNat / 2 ^ 63 % 2 ^ 1 = _
    omega
  have hzero : unpackSign b = 0#1 ↔ b.toNat / 2 ^ 63 = 0 := by
    rw [← BitVec.toNat_inj, htoNat]
    rfl
  unfold Sign.ofBitVec
  simp only [hzero]

/-- Unpacking reads the fields. -/
theorem unpack_eq_ofFields (b : BitVec Format.binary64.numBits) :
    UnpackedFloat.unpack Format.binary64 b =
      ofFields (Sign.ofBitVec (unpackSign b)) (unpackExponent b).toNat
        (unpackMantissa b).toNat := by
  have hones : unpackExponent b = -1#11 ↔ (unpackExponent b).toNat = 2047 := by
    rw [← BitVec.toNat_inj]
    rfl
  have hzeros : unpackExponent b = 0#11 ↔ (unpackExponent b).toNat = 0 := by
    rw [← BitVec.toNat_inj]
    rfl
  have hfraction : unpackMantissa b = 0#52 ↔ (unpackMantissa b).toNat = 0 := by
    rw [← BitVec.toNat_inj]
    rfl
  have hlead : (1#1 ++ unpackMantissa b).toNat = (unpackMantissa b).toNat + 2 ^ 52 := by
    rw [BitVec.toNat_append, BitVec.toNat_ofNat,
      ← Nat.shiftLeft_add_eq_or_of_lt (unpackMantissa b).isLt, Nat.shiftLeft_eq, Nat.add_comm]
    rfl
  unfold UnpackedFloat.unpack ofFields
  rw [← hlead]
  by_cases hfield : (unpackExponent b).toNat = 2047
  · rw [if_pos hfield, if_pos (hones.mpr hfield)]
    by_cases hzero : (unpackMantissa b).toNat = 0
    · rw [if_pos hzero, if_pos (hfraction.mpr hzero)]
    · rw [if_neg hzero, if_neg (mt hfraction.mp hzero)]
  · rw [if_neg hfield, if_neg (mt hones.mp hfield)]
    by_cases hfield' : (unpackExponent b).toNat = 0
    · rw [if_pos hfield', if_pos (hzeros.mpr hfield')]
      have hexponent : ((unpackExponent b).toNat : ℤ) - (Format.binary64.exponentBias +
          Format.binary64.mantissaBitsWithoutImplicit) + 1 = -1074 := by
        rw [hfield']
        rfl
      unfold ofParts
      by_cases hzero : (unpackMantissa b).toNat = 0
      · rw [dif_pos hzero, dif_pos (hfraction.mpr hzero)]
      · rw [dif_neg hzero, dif_neg (mt hfraction.mp hzero), hexponent]
    · rw [if_neg hfield', if_neg (mt hzeros.mp hfield')]
      symm
      apply ofParts_of_pos

/-! ### Range -/

/-- Is this an unpacked double in canonical form, and within the limits when it is finite? -/
structure Fits (f : UnpackedFloat) : Prop where
  canonical : Canonical f
  abs_lt : f.isFinite = true → |unpackedValue f| < limit

theorem abs_signed (s : Sign) (q : ℚ) : |signed s q| = |q| := by
  cases s
  · exact abs_neg q
  · rfl

/-- A mantissa of 53 digits is within the limits up to the exponent 971, and beyond them from there
on when it has all its digits. -/
theorem mul_lt_limit_iff {m : Nat} {e : ℤ} (lt : m < 2 ^ 53) (full : 2 ^ 52 ≤ m ∨ e = -1074) :
    (m : ℚ) * 2 ^ e < limit ↔ e ≤ 971 := by
  have hpos : (0 : ℚ) < 2 ^ e := zpow_pos two_pos e
  constructor
  · intro hlt
    by_contra hgt
    have hm : 2 ^ 52 ≤ m := full.resolve_right (by omega)
    have hm' : (2 ^ 52 : ℚ) ≤ m := by exact_mod_cast hm
    have hpow : (2 : ℚ) ^ (972 : ℤ) ≤ 2 ^ e := zpow_le_zpow_right₀ one_le_two (by omega)
    have hlimit : limit = 2 ^ 52 * 2 ^ (972 : ℤ) := pow_add 2 52 972
    have hmul : (2 ^ 52 : ℚ) * 2 ^ (972 : ℤ) ≤ m * 2 ^ e :=
      mul_le_mul hm' hpow (zpow_pos two_pos _).le (Nat.cast_nonneg m)
    rw [← hlimit] at hmul
    exact absurd hlt (not_lt.mpr hmul)
  · intro hle
    have hm : (m : ℚ) < 2 ^ 53 := by exact_mod_cast lt
    have hpow : (2 : ℚ) ^ e ≤ 2 ^ (971 : ℤ) := zpow_le_zpow_right₀ one_le_two hle
    have hlimit : limit = 2 ^ 53 * 2 ^ (971 : ℤ) := pow_add 2 53 971
    rw [hlimit]
    exact (mul_lt_mul_of_pos_right hm hpos).trans_le
      (mul_le_mul_of_nonneg_left hpow (pow_pos two_pos 53).le)

private theorem fits_ofParts (s : Sign) {m : Nat} {e : ℤ} (lt : m < 2 ^ 53) (bound : -1074 ≤ e)
    (full : 2 ^ 52 ≤ m ∨ e = -1074) (le : e ≤ 971) : Fits (ofParts s m e) := by
  have hholds := holds_ofParts s lt bound full
  refine ⟨hholds.canonical, ?_⟩
  intro _
  have hnonneg : 0 ≤ (m : ℚ) * 2 ^ e := mul_nonneg (Nat.cast_nonneg m) (zpow_pos two_pos e).le
  rw [hholds.value, abs_signed, abs_of_nonneg hnonneg]
  exact (mul_lt_limit_iff lt full).mpr le

/-- What is unpacked is in canonical form and within the limits. -/
theorem fits_unpack (b : BitVec Format.binary64.numBits) :
    Fits (UnpackedFloat.unpack Format.binary64 b) := by
  have hfraction : (unpackMantissa b).toNat < 2 ^ 52 := (unpackMantissa b).isLt
  have hfield : (unpackExponent b).toNat < 2 ^ 11 := (unpackExponent b).isLt
  rw [unpack_eq_ofFields]
  unfold ofFields
  split
  · split <;> exact ⟨trivial, Bool.noConfusion⟩
  · split
    · exact fits_ofParts _ (by omega) (by omega) (.inr rfl) (by omega)
    · exact fits_ofParts _ (by omega) (by omega) (.inl (by omega)) (by omega)

/-! ### Packing -/

private theorem unpackSign_packComponents (s : Sign) (field : BitVec 11) (fraction : BitVec 52) :
    Sign.ofBitVec (unpackSign (packComponents Format.binary64 s field fraction)) = s := by
  have hfield := field.isLt
  have hfraction := fraction.isLt
  have htoNat : (packComponents Format.binary64 s field fraction).toNat =
      (s.toBitVec.toNat * 2 ^ 11 + field.toNat) * 2 ^ 52 + fraction.toNat := by
    unfold packComponents
    rw [BitVec.toNat_append, BitVec.toNat_append, ← Nat.shiftLeft_add_eq_or_of_lt hfield,
      ← Nat.shiftLeft_add_eq_or_of_lt hfraction, Nat.shiftLeft_eq, Nat.shiftLeft_eq]
  rw [ofBitVec_unpackSign, htoNat]
  cases s
  · rw [if_neg (by simp only [Sign.toBitVec, BitVec.toNat_ofNat]; omega)]
  · rw [if_pos (by simp only [Sign.toBitVec, BitVec.toNat_ofNat]; omega)]

/-- The fields that were packed are the fields of the bits. -/
theorem unpack_packComponents (s : Sign) (field : BitVec 11) (fraction : BitVec 52) :
    UnpackedFloat.unpack Format.binary64 (packComponents Format.binary64 s field fraction) =
      ofFields s field.toNat fraction.toNat := by
  rw [unpack_eq_ofFields, unpackExponent_packComponents, unpackMantissa_packComponents,
    unpackSign_packComponents]

private theorem ofFields_of_full (s : Sign) {m : Nat} {e : ℤ} (lt : m < 2 ^ 53) (full : 2 ^ 52 ≤ m)
    (bound : -1074 ≤ e) (le : e ≤ 971) :
    ofFields s ((e + 1075).toNat % 2 ^ 11) (m % 2 ^ 52) = ofParts s m e := by
  have hfield : (e + 1075).toNat % 2 ^ 11 = (e + 1075).toNat := Nat.mod_eq_of_lt (by omega)
  have hfraction : m % 2 ^ 52 + 2 ^ 52 = m := by omega
  have hexponent : (((e + 1075).toNat : ℕ) : ℤ) - 1075 = e := by omega
  unfold ofFields
  rw [hfield, hfraction, hexponent, if_neg (by omega), if_neg (by omega)]

/-- The fields a finite number is packed into. -/
theorem pack_finite (s : Sign) {m : Nat} (e : ℤ) (pos : 0 < m) :
    UnpackedFloat.pack Format.binary64 (.finite s m e pos) =
      if 2 ^ 11 ≤ (e + 1075).toNat + 1 then packedInfinity Format.binary64 s
      else if m.log2 + 1 = 53 then
        packComponents Format.binary64 s (BitVec.ofNat 11 (e + 1075).toNat) (BitVec.ofNat 52 m)
      else packComponents Format.binary64 s (BitVec.ofNat 11 0) (BitVec.ofNat 52 m) := by
  have hbiased : e + ((1023 : ℕ) : ℤ) + ((52 : ℕ) : ℤ) = e + 1075 := by omega
  rw [← hbiased]
  rfl

/-- Packing takes a number in canonical form to itself up to the exponent 971, and to infinity
beyond. -/
theorem unpack_pack_finite (s : Sign) {m : Nat} {e : ℤ} (pos : 0 < m) (lt : m < 2 ^ 53)
    (bound : -1074 ≤ e) (full : 2 ^ 52 ≤ m ∨ e = -1074) :
    UnpackedFloat.unpack Format.binary64 (UnpackedFloat.pack Format.binary64 (.finite s m e pos)) =
      if e ≤ 971 then .finite s m e pos else .infinity s := by
  rw [pack_finite]
  by_cases hle : e ≤ 971
  · rw [if_pos hle, if_neg (by omega)]
    by_cases hm : 2 ^ 52 ≤ m
    · have hlow := (Nat.le_log2 pos.ne').mpr hm
      have hhigh := (Nat.log2_lt pos.ne').mpr lt
      rw [if_pos (by omega), unpack_packComponents, BitVec.toNat_ofNat, BitVec.toNat_ofNat,
        ← ofParts_of_pos]
      exact ofFields_of_full s lt hm bound hle
    · have hlog := (Nat.log2_lt pos.ne').mpr (Nat.lt_of_not_le hm)
      rw [if_neg (by omega), unpack_packComponents, BitVec.toNat_ofNat, ← ofParts_of_pos,
        full.resolve_left hm]
      show ofParts s (m % 2 ^ 52) (-1074) = _
      rw [Nat.mod_eq_of_lt (Nat.lt_of_not_le hm)]
  · rw [if_neg hle, if_pos (by omega)]
    unfold packedInfinity
    rw [unpack_packComponents]
    rfl

private theorem clamp_signed (s : Sign) (q : ℚ) : clamp (signed s q) = signed s (clamp q) := by
  cases s
  · exact clamp_neg q
  · rfl

/-- What is packed from a finite number in canonical form is known, and has its value limited to the
range of doubles. -/
theorem unpack_pack {f : UnpackedFloat} {q : ℚ} (holds : Holds f q) :
    (UnpackedFloat.unpack Format.binary64 (UnpackedFloat.pack Format.binary64 f)).isNaN = false ∧
      unpackedValue (UnpackedFloat.unpack Format.binary64
        (UnpackedFloat.pack Format.binary64 f)) = clamp q := by
  rw [← holds.value]
  cases f with
  | notANumber => exact absurd holds.finite Bool.false_ne_true
  | infinity s => exact absurd holds.finite Bool.false_ne_true
  | zero s =>
    have hzero : clamp 0 = 0 := clamp_of_abs_le (by rw [abs_zero]; exact limit_pos.le)
    unfold UnpackedFloat.pack packedZero
    rw [unpack_packComponents]
    exact ⟨rfl, hzero.symm⟩
  | finite s m e pos =>
    obtain ⟨lt, bound, full⟩ := holds.canonical
    have hnonneg : 0 ≤ (m : ℚ) * 2 ^ e := mul_nonneg (Nat.cast_nonneg m) (zpow_pos two_pos e).le
    rw [unpack_pack_finite s pos lt bound full]
    by_cases hle : e ≤ 971
    · have hlt := (mul_lt_limit_iff lt full).mpr hle
      have habs : |signed s ((m : ℚ) * 2 ^ e)| ≤ limit := by
        rw [abs_signed, abs_of_nonneg hnonneg]
        exact hlt.le
      rw [if_pos hle]
      exact ⟨rfl, (clamp_of_abs_le habs).symm⟩
    · have hlimit : limit ≤ (m : ℚ) * 2 ^ e := not_lt.mp (mt (mul_lt_limit_iff lt full).mp hle)
      rw [if_neg hle]
      refine ⟨rfl, ?_⟩
      show signed s limit = clamp (signed s (m * 2 ^ e))
      rw [clamp_signed, clamp_of_limit_le hlimit]

end MarketMaking.Binary64
