import MarketMaking.Proofs.Binary64.Order

/-!
# Doubles rounded to integers

A finite double is rounded to the integer nearest to its value, with halves to the even neighbour or
away from zero, and that integer is a double. As a signed word it is taken to the nearest end of the
range of words when it is beyond it, and infinity is beyond it too.
-/

namespace MarketMaking.Binary64

/-! ### Whole numbers -/

/-- The whole number nearest to a rational one, an exact half going away from zero. -/
def awayInt (q : ℚ) : ℤ := if 0 ≤ q then ⌊q + 1 / 2⌋ else -⌊1 / 2 - q⌋

/-- The whole number nearest to a rational one. An exact half goes to the even neighbour, or away
from zero. -/
def wholeNumber (tie : Tie) (q : ℚ) : ℤ :=
  match tie with
  | .toEven => nearestInt q
  | .up => awayInt q

/-- Rounding to whole numbers moves by at most one half. -/
theorem abs_wholeNumber_sub_le (tie : Tie) (q : ℚ) : |wholeNumber tie q - q| ≤ 1 / 2 := by
  have hfloor := Int.floor_le q
  have hceil := Int.lt_floor_add_one q
  cases tie with
  | toEven =>
    have hrest : (0 : ℚ) ≤ (⌊q⌋ % 2 : ℤ) ∧ ((⌊q⌋ % 2 : ℤ) : ℚ) ≤ 1 := by
      constructor
      · exact_mod_cast Int.emod_nonneg ⌊q⌋ two_ne_zero
      · exact_mod_cast (by omega : ⌊q⌋ % 2 ≤ 1)
    change |((nearestInt q : ℤ) : ℚ) - q| ≤ 1 / 2
    rw [abs_le]
    unfold nearestInt
    split
    · constructor <;> linarith
    · split
      · push_cast
        constructor <;> linarith
      · push_cast
        constructor <;> linarith
  | up =>
    change |((awayInt q : ℤ) : ℚ) - q| ≤ 1 / 2
    rw [abs_le]
    unfold awayInt
    split
    · have hlow := Int.floor_le (q + 1 / 2)
      have hhigh := Int.lt_floor_add_one (q + 1 / 2)
      constructor <;> linarith
    · have hlow := Int.floor_le (1 / 2 - q)
      have hhigh := Int.lt_floor_add_one (1 / 2 - q)
      push_cast
      constructor <;> linarith

/-- A number that is less than one half away from a whole one is rounded to it. -/
theorem wholeNumber_eq_of_abs_lt (tie : Tie) {q : ℚ} {n : ℤ} (lt : |q - n| < 1 / 2) :
    wholeNumber tie q = n := by
  have hround := abs_wholeNumber_sub_le tie q
  have habs : |((wholeNumber tie q - n : ℤ) : ℚ)| < 1 := by
    push_cast
    rw [abs_le] at hround
    rw [abs_lt] at lt ⊢
    constructor <;> linarith
  have hzero : |wholeNumber tie q - n| < 1 := by exact_mod_cast habs
  rw [Int.abs_lt_one_iff] at hzero
  omega

/-- Rounding keeps whole numbers. -/
@[simp] theorem wholeNumber_intCast (tie : Tie) (n : ℤ) : wholeNumber tie n = n := by
  apply wholeNumber_eq_of_abs_lt
  rw [sub_self, abs_zero]
  norm_num

/-- Rounding to whole numbers keeps the order. -/
theorem wholeNumber_mono (tie : Tie) {q r : ℚ} (le : q ≤ r) :
    wholeNumber tie q ≤ wholeNumber tie r := by
  cases tie with
  | toEven => exact nearestInt_mono le
  | up =>
    change awayInt q ≤ awayInt r
    unfold awayInt
    split
    · rw [if_pos (by linarith)]
      exact Int.floor_le_floor (by linarith)
    · next hq =>
      have hleft : 0 ≤ ⌊1 / 2 - q⌋ := Int.floor_nonneg.mpr (by linarith)
      split
      · next hr =>
        have hright : 0 ≤ ⌊r + 1 / 2⌋ := Int.floor_nonneg.mpr (by linarith)
        omega
      · have hfloor : ⌊1 / 2 - r⌋ ≤ ⌊1 / 2 - q⌋ := Int.floor_le_floor (by linarith)
        omega

/-- Rounding to whole numbers is symmetric around zero. -/
theorem wholeNumber_neg (tie : Tie) (q : ℚ) : wholeNumber tie (-q) = -wholeNumber tie q := by
  cases tie with
  | toEven => exact nearestInt_neg q
  | up =>
    change awayInt (-q) = -awayInt q
    unfold awayInt
    rcases lt_trichotomy q 0 with hneg | rfl | hpos
    · rw [if_pos (by linarith), if_neg (by linarith), neg_neg, sub_eq_add_neg, add_comm]
    · norm_num
    · rw [if_neg (by linarith), if_pos (by linarith), sub_neg_eq_add, add_comm]

/-- Rounding the quotient of natural numbers is rounding a rational number. -/
theorem cast_roundDiv (tie : Tie) (num : Nat) {den : Nat} (pos : 0 < den) :
    (roundDiv tie num den : ℤ) = wholeNumber tie ((num : ℚ) / den) := by
  have hden : (0 : ℚ) < den := Nat.cast_pos.mpr pos
  have hless : num % den < den := Nat.mod_lt num pos
  unfold roundDiv
  simp only
  rw [natCast_div_eq num pos]
  generalize num / den = whole
  generalize num % den = rest at hless ⊢
  have hrest : (0 : ℚ) ≤ (rest : ℚ) / den := by positivity
  have htwice : 2 * ((rest : ℚ) / den) = ((2 * rest : ℕ) : ℚ) / den := by
    push_cast
    ring
  rcases lt_trichotomy (2 * rest) den with hlt | heq | hgt
  · have hhalf : ((2 * rest : ℕ) : ℚ) / den < 1 := (div_lt_one hden).mpr (Nat.cast_lt.mpr hlt)
    rw [if_pos hlt]
    symm
    apply wholeNumber_eq_of_abs_lt
    rw [Int.cast_natCast, add_sub_cancel_left, abs_of_nonneg hrest]
    linarith
  · have hhalf : (rest : ℚ) / den = 1 / 2 := by
      rw [heq, div_self hden.ne'] at htwice
      linarith
    rw [if_neg (by omega), if_neg (by omega), hhalf]
    have hfloor : ⌊(whole : ℚ) + 1 / 2⌋ = whole := by
      rw [Int.floor_eq_iff]
      push_cast
      constructor <;> linarith
    cases tie with
    | toEven =>
      change _ = nearestInt _
      unfold nearestInt
      rw [hfloor, if_neg (by push_cast; linarith), if_neg (by push_cast; linarith)]
      push_cast
      rfl
    | up =>
      have hnext : ⌊(whole : ℚ) + 1 / 2 + 1 / 2⌋ = whole + 1 := by
        rw [Int.floor_eq_iff]
        push_cast
        constructor <;> linarith
      change _ = awayInt _
      unfold awayInt
      rw [if_pos (by positivity), hnext]
      push_cast
      rfl
  · have hhalf : 1 < ((2 * rest : ℕ) : ℚ) / den := (one_lt_div hden).mpr (Nat.cast_lt.mpr hgt)
    have hone : (rest : ℚ) / den < 1 := (div_lt_one hden).mpr (Nat.cast_lt.mpr hless)
    rw [if_neg (by omega), if_pos hgt]
    symm
    apply wholeNumber_eq_of_abs_lt
    push_cast
    rw [abs_lt]
    constructor <;> linarith

/-! ### Rounded doubles -/

/-- The parts of a finite double: a mantissa of at most 53 digits, and an exponent at the lower end
of the grid or above. -/
theorem exists_ofFloat_eq {x : Float} (finite : x.isFinite = true) :
    ∃ negative m e, ofFloat x = .finite negative m e ∧ m < 2 ^ 53 ∧ -1074 ≤ e := by
  have hcanonical := (fits x).canonical
  change x.toModel.unpack.isFinite = true at finite
  rw [ofFloat_eq]
  cases hx : x.toModel.unpack with
  | notANumber =>
    rw [hx] at finite
    cases finite
  | infinity s =>
    rw [hx] at finite
    cases finite
  | zero s => exact ⟨_, 0, minExponent, rfl, by decide, le_refl _⟩
  | finite s m e pos =>
    rw [hx] at hcanonical
    exact ⟨_, m, e, rfl, hcanonical.1, hcanonical.2.1⟩

/-- What is not finite has no parts. -/
theorem ofFloat_of_isFinite_eq_false {x : Float} (infinite : x.isFinite = false) :
    ofFloat x = .nan ∨ ∃ negative, ofFloat x = .infinite negative := by
  change x.toModel.unpack.isFinite = false at infinite
  rw [ofFloat_eq]
  cases hx : x.toModel.unpack with
  | notANumber => exact .inl rfl
  | infinity s => exact .inr ⟨_, rfl⟩
  | _ =>
    rw [hx] at infinite
    cases infinite

/-- The unknown number has the value zero. -/
theorem value_of_isNaN {x : Float} (unknown : x.isNaN = true) : value x = 0 := by
  change x.toModel.unpack.isNaN = true at unknown
  rw [value_eq]
  cases hx : x.toModel.unpack with
  | notANumber => rfl
  | infinity s =>
    rw [hx] at unknown
    cases unknown
  | zero s => rfl
  | finite s m e pos =>
    rw [hx] at unknown
    cases unknown

/-- The value of a finite double, by its parts. -/
theorem value_of_ofFloat {x : Float} {negative : Bool} {m : Nat} {e : ℤ}
    (parts : ofFloat x = .finite negative m e) :
    value x = if negative then -((m : ℚ) * 2 ^ e) else (m : ℚ) * 2 ^ e := by
  unfold value
  rw [parts]

/-- A natural number times a power of two. -/
theorem mul_zpow_ofNat (m e : Nat) :
    (m : ℚ) * 2 ^ (Int.ofNat e) = ((m * pow2 e : ℕ) : ℚ) := by
  unfold pow2
  rw [Int.ofNat_eq_natCast, zpow_natCast, Nat.pow_eq, Nat.cast_mul, Nat.cast_pow, Nat.cast_ofNat]

/-- A natural number divided by a power of two. -/
theorem mul_zpow_negSucc (m e : Nat) :
    (m : ℚ) * 2 ^ (Int.negSucc e) = (m : ℚ) / pow2 (e + 1) := by
  unfold pow2
  rw [zpow_negSucc, ← div_eq_mul_inv, Nat.pow_eq, Nat.cast_pow, Nat.cast_ofNat]

private theorem roundDiv_lt (tie : Tie) {m : Nat} (lt : m < 2 ^ 53) (e : Nat) :
    roundDiv tie m (pow2 (e + 1)) < 2 ^ 53 := by
  have hhigh := two_mul_roundDiv_mul_le tie m (pow2 (e + 1))
  have hpos := pow2_pos e
  rw [pow2_succ] at hhigh ⊢
  by_contra hge
  have hmul : 2 ^ 53 * (2 * pow2 e) ≤ roundDiv tie m (2 * pow2 e) * (2 * pow2 e) :=
    Nat.mul_le_mul_right _ (not_lt.mp hge)
  omega

private theorem value_signed_ofNat (negative : Bool) {n : Nat} (lt : n < 2 ^ 53) :
    (if negative then -Float.ofNat n else Float.ofNat n).isFinite = true ∧
      value (if negative then -Float.ofNat n else Float.ofNat n) =
        ((if negative then -(n : ℤ) else n : ℤ) : ℚ) := by
  obtain ⟨hknown, hn⟩ := value_ofNat n
  rw [nearest_natCast lt] at hn
  have hsmall : (n : ℚ) < limit := by
    calc (n : ℚ) < 2 ^ 53 := by exact_mod_cast lt
      _ ≤ limit := pow_le_pow_right₀ one_le_two (by decide)
  cases negative
  · refine ⟨isFinite_iff.mpr ⟨hknown, ?_⟩, hn⟩
    rw [if_neg Bool.false_ne_true, hn, Nat.abs_cast]
    exact hsmall
  · obtain ⟨hknown', hn'⟩ := value_neg hknown
    refine ⟨isFinite_iff.mpr ⟨hknown', ?_⟩, ?_⟩
    · rw [if_pos rfl, hn', hn, abs_neg, Nat.abs_cast]
      exact hsmall
    · rw [if_pos rfl, hn', hn, if_pos rfl, Int.cast_neg, Int.cast_natCast]

private theorem value_round_of_isFinite (tie : Tie) {x : Float} (finite : x.isFinite = true) :
    (round tie x).isFinite = true ∧ value (round tie x) = wholeNumber tie (value x) := by
  obtain ⟨negative, m, e, hparts, hm, -⟩ := exists_ofFloat_eq finite
  have hvalue := value_of_ofFloat hparts
  cases e with
  | ofNat e =>
    have hround : round tie x = x := by
      unfold round
      rw [hparts]
    have hwhole : value x =
        ((if negative then -((m * pow2 e : ℕ) : ℤ) else (m * pow2 e : ℕ) : ℤ) : ℚ) := by
      rw [hvalue, mul_zpow_ofNat]
      cases negative
      · rfl
      · exact (Int.cast_neg _).symm
    rw [hround]
    refine ⟨finite, ?_⟩
    rw [hwhole, wholeNumber_intCast]
  | negSucc e =>
    have hround : round tie x = if negative then -Float.ofNat (roundDiv tie m (pow2 (e + 1)))
        else Float.ofNat (roundDiv tie m (pow2 (e + 1))) := by
      unfold round
      rw [hparts]
    have hwhole : wholeNumber tie (value x) =
        if negative then -(roundDiv tie m (pow2 (e + 1)) : ℤ)
          else roundDiv tie m (pow2 (e + 1)) := by
      rw [hvalue, mul_zpow_negSucc]
      cases negative
      · exact (cast_roundDiv tie m (pow2_pos _)).symm
      · exact (wholeNumber_neg tie _).trans
          (congrArg Neg.neg (cast_roundDiv tie m (pow2_pos _)).symm)
    rw [hround, hwhole]
    exact value_signed_ofNat negative (roundDiv_lt tie hm e)

private theorem round_of_isFinite_eq_false (tie : Tie) {x : Float} (infinite : x.isFinite = false) :
    round tie x = x := by
  unfold round
  rcases ofFloat_of_isFinite_eq_false infinite with h | ⟨_, h⟩ <;> rw [h]

/-- The limit of doubles is a whole number. -/
theorem limit_eq_cast : limit = ((2 ^ 1024 : ℤ) : ℚ) := by
  unfold limit
  rw [Int.cast_pow, Int.cast_ofNat]

private theorem wholeNumber_of_isFinite_eq_false (tie : Tie) {x : Float}
    (infinite : x.isFinite = false) : wholeNumber tie (value x) = value x := by
  cases hx : x.isNaN
  · rcases value_of_infinite hx infinite with hlimit | hlimit
    · rw [hlimit, limit_eq_cast, wholeNumber_intCast]
    · rw [hlimit, wholeNumber_neg, limit_eq_cast, wholeNumber_intCast, Int.cast_neg]
  · rw [value_of_isNaN hx]
    exact congrArg Int.cast (wholeNumber_intCast tie 0)

/-- Rounding keeps known doubles known. -/
@[simp] theorem isNaN_round (tie : Tie) (x : Float) : (round tie x).isNaN = x.isNaN := by
  cases hx : x.isFinite
  · rw [round_of_isFinite_eq_false tie hx]
  · have hfinite := (value_round_of_isFinite tie hx).1
    rw [(isFinite_iff.mp hx).1, (isFinite_iff.mp hfinite).1]

/-- A double is rounded to the one for the whole number nearest to it. -/
theorem value_round (tie : Tie) (x : Float) :
    value (round tie x) = wholeNumber tie (value x) := by
  cases hx : x.isFinite
  · rw [round_of_isFinite_eq_false tie hx, wholeNumber_of_isFinite_eq_false tie hx]
  · exact (value_round_of_isFinite tie hx).2

/-! ### Signed words -/

/-- An integer as a signed word: one beyond the range of words is taken to the nearest end. -/
def saturate (n : ℤ) : ℤ := max minInt64 (min maxInt64 n)

/-- Saturating keeps the order. -/
theorem saturate_mono {m n : ℤ} (le : m ≤ n) : saturate m ≤ saturate n :=
  max_le_max_left _ (min_le_min_left _ le)

/-- Integers in the range of words are kept. -/
theorem saturate_of_mem {n : ℤ} (low : minInt64 ≤ n) (high : n ≤ maxInt64) : saturate n = n := by
  unfold saturate
  rw [min_eq_right high, max_eq_right low]

/-- Integers from the largest word on become that word. -/
theorem saturate_of_max_le {n : ℤ} (le : maxInt64 ≤ n) : saturate n = maxInt64 := by
  unfold saturate
  rw [min_eq_left le]
  exact max_eq_right (by decide)

/-- Integers up to the smallest word become that word. -/
theorem saturate_of_le_min {n : ℤ} (le : n ≤ minInt64) : saturate n = minInt64 :=
  max_eq_left ((min_le_right _ _).trans le)

private theorem ratio_div {m n : Nat} {e : ℤ} (eq : (m : ℚ) * 2 ^ e = n) :
    (ratio m e).1 / (ratio m e).2 = n := by
  cases e with
  | ofNat e =>
    rw [mul_zpow_ofNat, Nat.cast_inj] at eq
    exact (Nat.div_one _).trans eq
  | negSucc e =>
    rw [mul_zpow_negSucc, div_eq_iff (Nat.cast_ne_zero.mpr (pow2_pos _).ne')] at eq
    have heq : m = n * pow2 (e + 1) := by exact_mod_cast eq
    change m / pow2 (e + 1) = n
    rw [heq, Nat.mul_div_cancel _ (pow2_pos _)]

/-- A double with an integer value is taken to that integer, or to the end of the range of words. -/
theorem toInt64_of_value {x : Float} {n : ℤ} (eq : value x = n) : toInt64 x = saturate n := by
  cases hx : ofFloat x with
  | nan =>
    have hzero : ((0 : ℤ) : ℚ) = n := by
      rw [← eq]
      unfold value
      rw [hx]
      rfl
    unfold toInt64
    rw [hx, ← Int.cast_injective hzero]
    change 0 = saturate 0
    decide
  | infinite negative =>
    unfold value at eq
    unfold toInt64
    rw [hx, limit_eq_cast] at eq
    rw [hx]
    cases negative
    · have hlimit : 2 ^ 1024 = n := Int.cast_injective eq
      change maxInt64 = _
      rw [← hlimit]
      decide +kernel
    · have hlimit : -2 ^ 1024 = n := Int.cast_injective ((Int.cast_neg _).trans eq)
      change minInt64 = _
      rw [← hlimit]
      decide +kernel
  | finite negative m e =>
    have hvalue := value_of_ofFloat hx
    have hnonneg : (0 : ℚ) ≤ (m : ℚ) * 2 ^ e :=
      mul_nonneg (Nat.cast_nonneg m) (zpow_pos two_pos e).le
    have habs : (m : ℚ) * 2 ^ e = n.natAbs := by
      rw [← abs_of_nonneg hnonneg, Nat.cast_natAbs, Int.cast_abs, ← eq, hvalue]
      cases negative
      · rfl
      · exact (abs_neg _).symm
    have hwhole : whole x = n.natAbs := by
      unfold whole
      rw [hx]
      exact ratio_div habs
    have hsign : (if negative then -(n.natAbs : ℤ) else n.natAbs) = n := by
      rw [hvalue, habs] at eq
      apply Int.cast_injective (α := ℚ)
      cases negative
      · exact eq
      · rw [if_pos rfl] at eq ⊢
        rw [Int.cast_neg]
        exact eq
    unfold toInt64
    rw [hx, hwhole]
    exact congrArg saturate hsign

/-- Every double is rounded to the word for the whole number nearest to it. The unknown number
counts as zero here, and an infinity as the limit of doubles. -/
theorem toInt64_round (tie : Tie) (x : Float) :
    toInt64 (round tie x) = saturate (wholeNumber tie (value x)) :=
  toInt64_of_value (value_round tie x)

end MarketMaking.Binary64
