import MarketMaking.Decimal.Layout
import MarketMaking.Proofs.Binary64.Whole
import MarketMaking.Toml.Datetime

/-!
# Doubles with a fixed number of places

A finite double is written as an optional minus, digits, a point and a fixed number of digits behind
it. What that text says is the number with so many places that is nearest to the double.
-/

namespace MarketMaking

namespace Binary64

private theorem ratio_pos (m : Nat) (e : Int) : 0 < (ratio m e).2 := by
  cases e with
  | ofNat e => exact Nat.one_pos
  | negSucc e => exact pow2_pos _

private theorem cast_ratio (m : Nat) (e : Int) : ((ratio m e).1 : ℚ) /
    (ratio m e).2 = m * 2 ^ e := by
  cases e with
  | ofNat e => rw [mul_zpow_ofNat, ratio, Nat.cast_one, div_one]
  | negSucc e => rw [mul_zpow_negSucc, ratio]

end Binary64

namespace Decimal

/-! ### Plain decimals -/

/-- A decimal in plain form: digits, a point and `places` digits behind it, with a minus in front or
without. -/
structure Plain (places : Nat) where
  negative : Bool
  whole : List Char
  fraction : List Char
  whole_ne_nil : whole ≠ []
  length_fraction : fraction.length = places
  isDigit : ∀ c ∈ whole ++ fraction, c.isDigit = true

namespace Plain

variable {places : Nat}

/-- The text of a plain decimal. -/
def chars (d : Plain places) : List Char := signed d.negative (d.whole ++ '.' :: d.fraction)

/-- The number that a plain decimal says. -/
def value (d : Plain places) : ℚ :=
  (if d.negative then -1 else 1) * (ofDigitChars (d.whole ++ d.fraction) / 10 ^ places)

/-- Apart from digits a plain decimal holds a minus and a point only. -/
theorem mem_chars {d : Plain places} {c : Char} (mem : c ∈ d.chars) :
    c = '-' ∨ c = '.' ∨ c.isDigit = true := by
  have hmem : c = '-' ∨ c ∈ d.whole ++ '.' :: d.fraction := by
    unfold chars signed at mem
    split at mem
    · exact List.mem_cons.mp mem
    · exact .inr mem
  rcases hmem with rfl | hmem
  · exact .inl rfl
  · right
    rw [List.mem_append, List.mem_cons] at hmem
    rcases hmem with hwhole | rfl | hfraction
    · exact .inr (d.isDigit c (List.mem_append_left _ hwhole))
    · exact .inl rfl
    · exact .inr (d.isDigit c (List.mem_append_right _ hfraction))

/-- A plain decimal is not without a text. -/
theorem chars_ne_nil (d : Plain places) : d.chars ≠ [] := by
  unfold chars signed
  split <;> simp

end Plain

/-! ### Digits -/

private theorem ofDigitChars_append (xs ys : List Char) :
    ofDigitChars (xs ++ ys) = ofDigitChars xs * 10 ^ ys.length + ofDigitChars ys := by
  unfold ofDigitChars
  rw [Nat.ofDigitChars_append, Nat.ofDigitChars_eq_ofDigitChars_zero, Nat.mul_comm]

private theorem length_padded {width n : Nat} (pos : 0 < width) (lt : n < 10 ^ width) :
    (Toml.padded width n).length = width := by
  have hle : (digitChars n).length ≤ width :=
    (Nat.length_toDigits_le_iff (by decide) pos).mpr lt
  simp [Toml.padded, digitCount]
  omega

/-! ### Rounding to places -/

/-- A quotient with a fixed number of places is at most half a unit of the last place away. -/
theorem abs_fixed_sub_le (places num : Nat) {den : Nat} (pos : 0 < den) :
    |(fixed places num den : ℚ) / 10 ^ places - (num : ℚ) / den| ≤ 1 / 2 / 10 ^ places := by
  have hunit : (0 : ℚ) < 10 ^ places := by positivity
  have hscaled : ((num * pow10 places : ℕ) : ℚ) / den = (num : ℚ) / den * 10 ^ places := by
    rw [pow10, Nat.pow_eq]
    push_cast
    ring
  have hround : |(fixed places num den : ℚ) - (num : ℚ) / den * 10 ^ places| ≤ 1 / 2 := by
    have hwhole := Binary64.abs_wholeNumber_sub_le .toEven ((num * pow10 places : ℕ) / den : ℚ)
    rwa [← Binary64.cast_roundDiv .toEven _ pos, hscaled] at hwhole
  calc |(fixed places num den : ℚ) / 10 ^ places - (num : ℚ) / den|
      = |(fixed places num den : ℚ) - (num : ℚ) / den * 10 ^ places| / 10 ^ places := by
        rw [← abs_of_pos hunit, ← abs_div, abs_of_pos hunit, sub_div,
          mul_div_cancel_right₀ _ hunit.ne']
    _ ≤ 1 / 2 / 10 ^ places := div_le_div_of_nonneg_right hround hunit.le

/-- The plain decimal of a mantissa with an exponent, under a sign. -/
def Plain.ofParts {places : Nat} (pos : 0 < places) (negative : Bool) (mantissa : Nat)
    (exponent : Int) : Plain places :=
  let (num, den) := Binary64.ratio mantissa exponent
  let scaled := fixed places num den
  { negative
    whole := digitChars (scaled / pow10 places)
    fraction := Toml.padded places (scaled % pow10 places)
    whole_ne_nil := Nat.toDigits_ne_nil
    length_fraction := length_padded pos (Nat.mod_lt _ (pow10_pos places))
    isDigit := by
      intro c mem
      rcases List.mem_append.mp mem with hwhole | hfraction
      · exact isDigit_of_mem_digitChars hwhole
      · rcases List.mem_append.mp hfraction with hzero | hdigit
        · rw [List.eq_of_mem_replicate hzero]
          decide
        · exact isDigit_of_mem_digitChars hdigit }

private theorem Plain.value_ofParts {places : Nat} (pos : 0 < places) (negative : Bool) (m : Nat)
    (e : Int) : (Plain.ofParts pos negative m e).value = (if negative then -1 else 1) *
      ((fixed places (Binary64.ratio m e).1 (Binary64.ratio m e).2 : ℚ) / 10 ^ places) := by
  have hdigits : ofDigitChars ((Plain.ofParts pos negative m e).whole ++
      (Plain.ofParts pos negative m e).fraction) =
        fixed places (Binary64.ratio m e).1 (Binary64.ratio m e).2 := by
    rw [ofDigitChars_append, (Plain.ofParts pos negative m e).length_fraction]
    change ofDigitChars (digitChars (_ / pow10 places)) * pow10 places +
      ofDigitChars (Toml.padded places (_ % pow10 places)) = _
    rw [ofDigitChars_digitChars, Toml.ofDigitChars_padded]
    exact Nat.div_add_mod' _ _
  rw [Plain.value, hdigits]
  rfl

variable {places : Nat}

/-- A finite double is written as a plain decimal that is at most half a unit of the last place away
from it. -/
theorem exists_plain_of_isFinite (pos : 0 < places) {x : Float} (finite : x.isFinite = true) :
    ∃ d : Plain places, fixedPoint? places x = some d.chars ∧
      |d.value - Binary64.value x| ≤ 1 / 2 / 10 ^ places := by
  obtain ⟨negative, m, e, hparts, -, -⟩ := Binary64.exists_ofFloat_eq finite
  have hround := abs_fixed_sub_le places (Binary64.ratio m e).1 (Binary64.ratio_pos m e)
  rw [Binary64.cast_ratio] at hround
  refine ⟨.ofParts pos negative m e, ?_, ?_⟩
  · rw [fixedPoint?, hparts]
    rfl
  · rw [Plain.value_ofParts, Binary64.value_of_ofFloat hparts]
    cases negative with
    | false => simpa using hround
    | true =>
      -- the sign is the same on both sides, so the distance is the one without it
      rw [abs_sub_comm] at hround
      simpa [neg_add_eq_sub] using hround

/-- What is not finite is not written. -/
theorem fixedPoint?_of_isFinite_eq_false {x : Float} (infinite : x.isFinite = false) :
    fixedPoint? places x = none := by
  unfold fixedPoint?
  rcases Binary64.ofFloat_of_isFinite_eq_false infinite with h | ⟨_, h⟩ <;> rw [h]

end Decimal

end MarketMaking
