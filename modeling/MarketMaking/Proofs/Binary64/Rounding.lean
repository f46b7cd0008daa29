import MarketMaking.Proofs.Binary64.Nearest

/-!
# Rounding of mantissas

The arithmetic of doubles shifts a mantissa down to its 53 digits, keeps of the digits that are lost
only the first and whether anything followed it, and rounds by these two. What comes of it is the
number rounded to the grid, in the form in which the comparison of doubles expects its operands.
-/

namespace MarketMaking.Binary64

open Float.Model Float.Model.UnpackedFloat

/-! ### Further bits -/

/-- One half, if the bit is set. -/
def halfBit (b : Bool) : ℚ := if b then 1 / 2 else 0

/-- A mantissa and its further bits tell where a number lies: the first bit stands for one half, and
the second says whether anything follows. -/
structure Tells (em : ExtendedMantissa) (q : ℚ) : Prop where
  below : em.mantissa + halfBit em.roundBit ≤ q
  above : q < em.mantissa + halfBit em.roundBit + 1 / 2
  exact : em.stickyBit = false ↔ em.mantissa + halfBit em.roundBit = q

private theorem halfBit_bounds (b : Bool) : 0 ≤ halfBit b ∧ halfBit b ≤ 1 / 2 := by
  unfold halfBit
  split <;> norm_num

private theorem halfBit_eq_zero_iff (b : Bool) : halfBit b = 0 ↔ b = false := by
  cases b <;> norm_num [halfBit]

/-- A mantissa without further bits tells its own place. -/
theorem tells_exact (m : Nat) : Tells (ExtendedMantissa.ofMantissaAndAccuracy m .exact) m := by
  constructor <;> norm_num [ExtendedMantissa.ofMantissaAndAccuracy, halfBit]

private theorem Tells.floor_eq {em : ExtendedMantissa} {q : ℚ} (tells : Tells em q) :
    ⌊q⌋ = em.mantissa := by
  have hbits := halfBit_bounds em.roundBit
  have hbelow := tells.below
  have habove := tells.above
  rw [Int.floor_eq_iff]
  push_cast
  constructor <;> linarith

private theorem Tells.roundedMantissa_eq {em : ExtendedMantissa} {q : ℚ} (tells : Tells em q) :
    (em.roundedMantissa : ℤ) = nearestInt q := by
  have hfloor := tells.floor_eq
  have hbelow := tells.below
  have habove := tells.above
  have hexact := tells.exact
  unfold nearestInt
  rw [hfloor]
  obtain ⟨m, r, s⟩ := em
  cases r <;> cases s <;>
    simp only [halfBit, ExtendedMantissa.roundedMantissa, ExtendedMantissa.accuracy,
      Accuracy.roundToNearestEven, Int.cast_natCast, if_true, Bool.false_eq_true, if_false,
      true_iff, false_iff, Bool.true_eq_false, add_zero] at hbelow habove hexact ⊢
  · rw [if_pos (by linarith)]
  · rw [if_pos (by linarith)]
  · rw [if_neg (by linarith), if_neg (by linarith)]
    push_cast
    rfl
  · have hne : (m : ℚ) + 1 / 2 < q := lt_of_le_of_ne hbelow hexact
    rw [if_neg (by linarith), if_pos (by linarith)]
    push_cast
    rfl

private theorem Tells.shiftRightOne {em : ExtendedMantissa} {q : ℚ} (tells : Tells em q) :
    Tells em.shiftRightOne (q / 2) := by
  have hbits := halfBit_bounds em.roundBit
  have hbelow := tells.below
  have habove := tells.above
  have hexact := tells.exact
  have hsplit : (em.mantissa : ℚ) = 2 * ((em.mantissa / 2 : ℕ) : ℚ) +
      2 * halfBit (em.mantissa % 2 != 0) := by
    have hdiv : (em.mantissa : ℚ) = ((2 * (em.mantissa / 2) + em.mantissa % 2 : ℕ) : ℚ) := by
      rw [Nat.div_add_mod]
    rcases Nat.mod_two_eq_zero_or_one em.mantissa with heven | hodd
    · rw [hdiv, heven]
      norm_num [halfBit]
    · rw [hdiv, hodd]
      norm_num [halfBit]
  constructor
  · show ((em.mantissa / 2 : ℕ) : ℚ) + halfBit (em.mantissa % 2 != 0) ≤ q / 2
    linarith
  · show q / 2 < ((em.mantissa / 2 : ℕ) : ℚ) + halfBit (em.mantissa % 2 != 0) + 1 / 2
    linarith
  · show (em.roundBit || em.stickyBit) = false ↔
      ((em.mantissa / 2 : ℕ) : ℚ) + halfBit (em.mantissa % 2 != 0) = q / 2
    rw [Bool.or_eq_false_iff, hexact]
    rw [← halfBit_eq_zero_iff]
    constructor
    · rintro ⟨hround, hq⟩
      linarith
    · intro hq
      have hround : halfBit em.roundBit = 0 := by linarith
      exact ⟨hround, by linarith⟩

private theorem Tells.shiftRight {em : ExtendedMantissa} {q : ℚ} (tells : Tells em q) (n : Nat) :
    Tells (em >>> n) (q / 2 ^ n) := by
  show Tells (n.repeat ExtendedMantissa.shiftRightOne em) (q / 2 ^ n)
  induction n with
  | zero =>
    rw [pow_zero, div_one]
    exact tells
  | succ n ih =>
    rw [pow_succ, ← div_div]
    exact ih.shiftRightOne

/-! ### Values of unpacked doubles -/

/-- A number with a sign. -/
def signed (s : Sign) (q : ℚ) : ℚ :=
  match s with
  | .positive => q
  | .negative => -q

/-- The value of an unpacked double, with the limit of doubles for infinity. -/
def unpackedValue : UnpackedFloat → ℚ
  | .notANumber => 0
  | .infinity s => signed s limit
  | .zero _ => 0
  | .finite s m e _ => signed s (m * 2 ^ e)

/-- Has this unpacked double the mantissa and exponent that its value is given by in doubles, if it
were for the size of the exponent? -/
def Canonical : UnpackedFloat → Prop
  | .finite _ m e _ => m < 2 ^ 53 ∧ -1074 ≤ e ∧ (2 ^ 52 ≤ m ∨ e = -1074)
  | _ => True

/-- The exponent that a mantissa is shifted to is that of the grid. -/
theorem targetExponent_eq {m : Nat} (pos : 0 < m) (e : ℤ) {q : ℚ} (below : m ≤ q)
    (above : q < m + 1) :
    Format.binary64.targetExponent (totalExponent m e) = gridExponent (q * 2 ^ e) := by
  have hm : (0 : ℚ) < m := Nat.cast_pos.mpr pos
  have hq : 0 < q * 2 ^ e := mul_pos (hm.trans_le below) (zpow_pos two_pos e)
  have hlog : Int.log 2 (q * 2 ^ e) = m.log2 + e := by
    apply le_antisymm
    · apply Int.lt_add_one_iff.mp
      apply (Int.lt_zpow_iff_log_lt one_lt_two hq).mp
      have hlt : m + 1 ≤ 2 ^ (m.log2 + 1) := Nat.lt_log2_self
      have hle : (m : ℚ) + 1 ≤ 2 ^ ((m.log2 : ℤ) + 1) := by exact_mod_cast hlt
      rw [Nat.cast_ofNat, show (m.log2 : ℤ) + e + 1 = m.log2 + 1 + e by ring, zpow_add₀ two_ne_zero]
      exact mul_lt_mul_of_pos_right (above.trans_le hle) (zpow_pos two_pos e)
    · apply (Int.zpow_le_iff_le_log one_lt_two hq).mp
      have hle : 2 ^ m.log2 ≤ m := Nat.log2_self_le pos.ne'
      have hle' : (2 : ℚ) ^ (m.log2 : ℤ) ≤ m := by exact_mod_cast hle
      rw [Nat.cast_ofNat, zpow_add₀ two_ne_zero]
      exact mul_le_mul_of_nonneg_right (hle'.trans below) (zpow_pos two_pos e).le
  unfold gridExponent Format.targetExponent totalExponent
  rw [abs_of_pos hq, hlog]
  show max (_ - ((53 : ℕ) : ℤ)) (-1074) = _
  omega

/-! ### Rounding -/

/-- An unpacked double that is neither infinite nor unknown, is in canonical form and has the value
`q`. -/
structure Holds (f : UnpackedFloat) (q : ℚ) : Prop where
  finite : f.isFinite = true
  canonical : Canonical f
  value : unpackedValue f = q

private theorem shift_eq {m : Nat} {e : ℤ} {accuracy : Accuracy} {n : Nat}
    (eq : (Format.binary64.targetExponent (totalExponent m e) - e).toNat = n) :
    shiftToTargetExponent Format.binary64 m e accuracy =
      (ExtendedMantissa.ofMantissaAndAccuracy m accuracy >>> n, e + n) := by
  rw [← eq]
  rfl

private theorem shift_of_lt {r : Nat} {t : ℤ} (lt : r < 2 ^ 53) (bound : -1074 ≤ t) :
    shiftToTargetExponent Format.binary64 r t .exact = (⟨r, false, false⟩, t) := by
  have hlog : r.log2 ≤ 52 := by
    rcases Nat.eq_zero_or_pos r with rfl | hpos
    · exact Nat.zero_le _
    · have := (Nat.log2_lt hpos.ne').mpr lt
      omega
  have hstay : (Format.binary64.targetExponent (totalExponent r t) - t).toNat = 0 := by
    show (max ((r.log2 : ℤ) + 1 + t - ((53 : ℕ) : ℤ)) (-1074) - t).toNat = 0
    omega
  rw [shift_eq hstay, Int.natCast_zero, add_zero]
  rfl

private theorem shift_two_pow {t : ℤ} (bound : -1074 ≤ t) :
    shiftToTargetExponent Format.binary64 (2 ^ 53) t .exact =
      (⟨2 ^ 52, false, false⟩, t + 1) := by
  have hone : (Format.binary64.targetExponent (totalExponent (2 ^ 53) t) - t).toNat = 1 := by
    unfold totalExponent
    rw [Nat.log2_two_pow]
    show (max (((53 : ℕ) : ℤ) + 1 + t - ((53 : ℕ) : ℤ)) (-1074) - t).toNat = 1
    omega
  rw [shift_eq hone]
  rfl

/-- An unpacked double with the given parts, which is a zero when the mantissa is. -/
def ofParts (s : Sign) (m : Nat) (e : ℤ) : UnpackedFloat :=
  if h : m = 0 then .zero s else .finite s m e (Nat.pos_of_ne_zero h)

@[simp] theorem ofParts_zero (s : Sign) (e : ℤ) : ofParts s 0 e = .zero s := dif_pos rfl

/-- Parts with a mantissa are those of a finite number. -/
theorem ofParts_of_pos (s : Sign) {m : Nat} (pos : 0 < m) (e : ℤ) :
    ofParts s m e = .finite s m e pos := dif_neg pos.ne'

theorem unpackedValue_ofParts (s : Sign) (m : Nat) (e : ℤ) :
    unpackedValue (ofParts s m e) = signed s (m * 2 ^ e) := by
  rcases m.eq_zero_or_pos with rfl | hpos
  · rw [ofParts_zero, Nat.cast_zero, zero_mul]
    cases s
    · exact neg_zero.symm
    · rfl
  · rw [ofParts_of_pos s hpos]
    rfl

/-- Parts in canonical form hold their value. -/
theorem holds_ofParts (s : Sign) {m : Nat} {e : ℤ} (lt : m < 2 ^ 53) (bound : -1074 ≤ e)
    (canonical : 2 ^ 52 ≤ m ∨ e = -1074) : Holds (ofParts s m e) (signed s (m * 2 ^ e)) := by
  rw [← unpackedValue_ofParts]
  rcases m.eq_zero_or_pos with rfl | hpos
  · rw [ofParts_zero]
    exact ⟨rfl, trivial, rfl⟩
  · rw [ofParts_of_pos s hpos]
    exact ⟨rfl, ⟨lt, bound, canonical⟩, rfl⟩

private theorem holds_shift (s : Sign) {r : Nat} {t : ℤ} (le : r ≤ 2 ^ 53) (bound : -1074 ≤ t)
    (canonical : 2 ^ 52 ≤ r ∨ t = -1074) :
    Holds (ofParts s (shiftToTargetExponent Format.binary64 r t .exact).1.mantissa
      (shiftToTargetExponent Format.binary64 r t .exact).2) (signed s (r * 2 ^ t)) := by
  rcases le.lt_or_eq with hlt | rfl
  · rw [shift_of_lt hlt bound]
    exact holds_ofParts s hlt bound canonical
  · have hvalue : ((2 ^ 53 : ℕ) : ℚ) * 2 ^ t = ((2 ^ 52 : ℕ) : ℚ) * 2 ^ (t + 1) := by
      rw [zpow_add_one₀ two_ne_zero]
      push_cast
      ring
    rw [shift_two_pow bound, hvalue]
    exact holds_ofParts s (Nat.pow_lt_pow_right (by decide) (by decide)) (by omega)
      (.inl (Nat.le_refl _))

/-- Rounding is a shift, a rounding of the mantissa and a second shift. -/
theorem roundWithAccuracy_eq (s : Sign) {m : Nat} {e : ℤ} {accuracy : Accuracy}
    {first : ExtendedMantissa × ℤ}
    (eq : shiftToTargetExponent Format.binary64 m e accuracy = first) :
    roundWithAccuracy Format.binary64 s m e accuracy =
      ofParts s
        (shiftToTargetExponent Format.binary64 first.1.roundedMantissa first.2 .exact).1.mantissa
        (shiftToTargetExponent Format.binary64 first.1.roundedMantissa first.2 .exact).2 := by
  rw [← eq]
  rfl

theorem signed_onGrid (s : Sign) (q : ℚ) : signed s (onGrid q) = onGrid (signed s q) := by
  cases s
  · exact (onGrid_neg q).symm
  · rfl

/-- Rounding a mantissa rounds the number that it and its accuracy tell of to the grid, if the
exponent that the mantissa is shifted to is that of the number. The mantissa may be zero: then all
digits were cut off before. -/
theorem holds_roundWithAccuracy_of_target (s : Sign) {m : Nat} {e : ℤ} {accuracy : Accuracy}
    {q : ℚ} (pos : 0 < q) (tells : Tells (ExtendedMantissa.ofMantissaAndAccuracy m accuracy) q)
    (target : Format.binary64.targetExponent (totalExponent m e) = gridExponent (q * 2 ^ e))
    (le : e ≤ gridExponent (q * 2 ^ e)) :
    Holds (roundWithAccuracy Format.binary64 s m e accuracy) (onGrid (signed s (q * 2 ^ e))) := by
  have hq : 0 < q * 2 ^ e := mul_pos pos (zpow_pos two_pos e)
  -- The first shift takes the value to a whole number of units of the grid.
  have hunits : q / 2 ^ (gridExponent (q * 2 ^ e) - e).toNat =
      q * 2 ^ e / 2 ^ gridExponent (q * 2 ^ e) := by
    rw [← zpow_natCast, Int.toNat_of_nonneg (by omega), zpow_sub₀ two_ne_zero]
    field_simp
  have hexponent : e + (gridExponent (q * 2 ^ e) - e).toNat = gridExponent (q * 2 ^ e) := by omega
  have hrounded := (tells.shiftRight (gridExponent (q * 2 ^ e) - e).toNat).roundedMantissa_eq
  rw [hunits] at hrounded
  have hgrid : (0 : ℚ) < 2 ^ gridExponent (q * 2 ^ e) := zpow_pos two_pos _
  rw [roundWithAccuracy_eq s (shift_eq (by rw [target])), hexponent]
  generalize (ExtendedMantissa.ofMantissaAndAccuracy m accuracy >>>
    (gridExponent (q * 2 ^ e) - e).toNat).roundedMantissa = r at hrounded ⊢
  have hle : (r : ℤ) ≤ 2 ^ 53 := by
    have habs := abs_lt_mul (q * 2 ^ e)
    rw [abs_of_pos hq] at habs
    have hdiv : q * 2 ^ e / 2 ^ gridExponent (q * 2 ^ e) ≤ ((2 ^ 53 : ℤ) : ℚ) := by
      rw [div_le_iff₀ hgrid]
      push_cast
      exact habs.le
    have hmono := nearestInt_mono hdiv
    rw [nearestInt_intCast] at hmono
    rw [hrounded]
    exact hmono
  have hcanonical : 2 ^ 52 ≤ r ∨ gridExponent (q * 2 ^ e) = -1074 := by
    by_cases hend : gridExponent (q * 2 ^ e) = -1074
    · exact .inr hend
    · left
      have hdiv : ((2 ^ 52 : ℤ) : ℚ) ≤ q * 2 ^ e / 2 ^ gridExponent (q * 2 ^ e) := by
        rw [le_div_iff₀ hgrid]
        push_cast
        exact mul_le_of_gridExponent_ne hq hend
      have hmono := nearestInt_mono hdiv
      rw [nearestInt_intCast, ← hrounded] at hmono
      exact_mod_cast hmono
  have hvalue : onGrid (q * 2 ^ e) = r * 2 ^ gridExponent (q * 2 ^ e) := by
    unfold onGrid
    rw [← hrounded, Int.cast_natCast]
  have hbound : -1074 ≤ gridExponent (q * 2 ^ e) := le_max_right _ _
  rw [← signed_onGrid, hvalue]
  exact holds_shift s (by exact_mod_cast hle) hbound hcanonical

/-- A mantissa and its accuracy have the whole part of the number that they tell of. -/
theorem floor_of_tells {m : Nat} {accuracy : Accuracy} {q : ℚ}
    (tells : Tells (ExtendedMantissa.ofMantissaAndAccuracy m accuracy) q) :
    (m : ℚ) ≤ q ∧ q < m + 1 := by
  have hmantissa : (ExtendedMantissa.ofMantissaAndAccuracy m accuracy).mantissa = m := by
    cases accuracy with
    | exact => rfl
    | inexact relative => cases relative <;> rfl
  have hfloor := tells.floor_eq
  rw [hmantissa, Int.floor_eq_iff, Int.cast_natCast] at hfloor
  exact hfloor

private theorem holds_roundWithAccuracy (s : Sign) {m : Nat} {e : ℤ} {accuracy : Accuracy} {q : ℚ}
    (pos : 0 < m) (tells : Tells (ExtendedMantissa.ofMantissaAndAccuracy m accuracy) q)
    (le : e ≤ gridExponent (q * 2 ^ e)) :
    Holds (roundWithAccuracy Format.binary64 s m e accuracy) (onGrid (signed s (q * 2 ^ e))) := by
  obtain ⟨below, above⟩ := floor_of_tells tells
  exact holds_roundWithAccuracy_of_target s ((Nat.cast_pos.mpr pos).trans_le below) tells
    (targetExponent_eq pos e below above) le

private theorem holds_round (s : Sign) {m : Nat} (pos : 0 < m) (e : ℤ) :
    Holds (Float.Model.UnpackedFloat.round Format.binary64 s m e)
      (onGrid (signed s (m * 2 ^ e))) := by
  have htarget := targetExponent_eq pos e (le_refl (m : ℚ)) (lt_add_one _)
  obtain ⟨t, ht⟩ : ∃ t, gridExponent (m * 2 ^ e) = t := ⟨_, rfl⟩
  -- As many digits are added as the exponent is beyond that of the grid.
  have hvalue : ((m * 2 ^ (e - t).toNat : ℕ) : ℚ) * 2 ^ (e - (e - t).toNat) = m * 2 ^ e := by
    push_cast
    rw [mul_assoc, ← zpow_natCast, ← zpow_add₀ two_ne_zero]
    congr 2
    omega
  have henough : e - (e - t).toNat ≤
      gridExponent ((m * 2 ^ (e - t).toNat : ℕ) * 2 ^ (e - (e - t).toNat)) := by
    rw [hvalue, ht]
    omega
  have hrounded := holds_roundWithAccuracy s (Nat.mul_pos pos (Nat.two_pow_pos (e - t).toNat))
    (tells_exact _) henough
  rw [hvalue, ← Nat.shiftLeft_eq] at hrounded
  unfold Float.Model.UnpackedFloat.round
  rw [htarget, ht]
  exact hrounded

/-- Rounding a whole number of units rounds its value to the grid. -/
theorem holds_normalize (m e : ℤ) (zeroSign : Sign) :
    Holds (UnpackedFloat.normalize Format.binary64 m e zeroSign) (onGrid (m * 2 ^ e)) := by
  unfold UnpackedFloat.normalize
  rcases lt_trichotomy m 0 with hneg | rfl | hpos
  · rw [show compare m 0 = .lt from Int.compare_eq_lt.mpr hneg]
    have hm : ((-m).toNat : ℚ) = -m := by exact_mod_cast Int.toNat_of_nonneg (by omega : 0 ≤ -m)
    have hround := holds_round .negative (by omega : 0 < (-m).toNat) e
    rw [hm] at hround
    rw [show (m : ℚ) * 2 ^ e = signed .negative (-m * 2 ^ e) by unfold signed; ring]
    exact hround
  · refine ⟨rfl, trivial, ?_⟩
    rw [Int.cast_zero, zero_mul, onGrid_zero]
    rfl
  · rw [show compare m 0 = .gt from Int.compare_eq_gt.mpr hpos]
    have hm : (m.toNat : ℚ) = m := by exact_mod_cast Int.toNat_of_nonneg hpos.le
    have hround := holds_round .positive (by omega : 0 < m.toNat) e
    rw [hm] at hround
    exact hround

/-! ### Products -/

theorem signed_mul (s t : Sign) (q r : ℚ) : signed (s * t) (q * r) = signed s q * signed t r := by
  cases s <;> cases t
  · exact (neg_mul_neg q r).symm
  · exact (neg_mul q r).symm
  · exact (mul_neg q r).symm
  · rfl

/-- Multiplying rounds the product to the grid, when there are digits enough. -/
theorem holds_mul_finite (s t : Sign) {m n : Nat} {e f : ℤ} (hm : 0 < m) (hn : 0 < n)
    (enough : e + f ≤ gridExponent ((m * n : ℕ) * 2 ^ (e + f))) :
    Holds (mul Format.binary64 (.finite s m e hm) (.finite t n f hn))
      (onGrid (signed s (m * 2 ^ e) * signed t (n * 2 ^ f))) := by
  have hvalue : signed s (m * 2 ^ e) * signed t (n * 2 ^ f) =
      signed (s * t) ((m * n : ℕ) * 2 ^ (e + f)) := by
    rw [← signed_mul, zpow_add₀ two_ne_zero]
    push_cast
    congr 1
    ring
  rw [hvalue]
  exact holds_roundWithAccuracy (s * t) (Nat.mul_pos hm hn) (tells_exact _) enough

private theorem enough_of_canonical {s t : Sign} {m n : Nat} {e f : ℤ} {hm : 0 < m} {hn : 0 < n}
    (left : Canonical (.finite s m e hm)) (right : Canonical (.finite t n f hn)) :
    e + f ≤ gridExponent ((m * n : ℕ) * 2 ^ (e + f)) := by
  have hpos : 0 < m * n := Nat.mul_pos hm hn
  rw [← targetExponent_eq hpos (e + f) (le_refl _) (lt_add_one _)]
  show e + f ≤ max (((m * n).log2 : ℤ) + 1 + (e + f) - ((53 : ℕ) : ℤ)) (-1074)
  rcases left with ⟨-, -, hleft | hleft⟩
  · have hlog : 52 ≤ (m * n).log2 :=
      (Nat.le_log2 hpos.ne').mpr (hleft.trans (Nat.le_mul_of_pos_right m hn))
    omega
  · rcases right with ⟨-, -, hright | hright⟩
    · have hlog : 52 ≤ (m * n).log2 :=
        (Nat.le_log2 hpos.ne').mpr (hright.trans (Nat.le_mul_of_pos_left n hm))
      omega
    · omega

/-- Multiplying finite doubles rounds the product to the grid. -/
theorem holds_mul {f g : UnpackedFloat} (hf : Canonical f) (hg : Canonical g)
    (finiteLeft : f.isFinite = true) (finiteRight : g.isFinite = true) :
    Holds (mul Format.binary64 f g) (onGrid (unpackedValue f * unpackedValue g)) := by
  cases f with
  | notANumber => cases finiteLeft
  | infinity s => cases finiteLeft
  | zero s =>
    have hzero : unpackedValue (.zero s) * unpackedValue g = 0 := zero_mul _
    rw [hzero, onGrid_zero]
    cases g with
    | notANumber => cases finiteRight
    | infinity t => cases finiteRight
    | zero t => exact ⟨rfl, trivial, rfl⟩
    | finite t n f hn => exact ⟨rfl, trivial, rfl⟩
  | finite s m e hm =>
    cases g with
    | notANumber => cases finiteRight
    | infinity t => cases finiteRight
    | zero t =>
      have hzero : unpackedValue (.finite s m e hm) * unpackedValue (.zero t) = 0 := mul_zero _
      rw [hzero, onGrid_zero]
      exact ⟨rfl, trivial, rfl⟩
    | finite t n f hn => exact holds_mul_finite s t hm hn (enough_of_canonical hf hg)

/-- Changing the sign changes that of the value. -/
theorem holds_neg {f : UnpackedFloat} (hf : Canonical f) (finite : f.isFinite = true) :
    Holds f.neg (-unpackedValue f) := by
  cases f with
  | notANumber => cases finite
  | infinity s => cases finite
  | zero s => exact ⟨rfl, trivial, neg_zero.symm⟩
  | finite s m e hm =>
    refine ⟨rfl, hf, ?_⟩
    cases s
    · exact (neg_neg _).symm
    · rfl

end MarketMaking.Binary64
