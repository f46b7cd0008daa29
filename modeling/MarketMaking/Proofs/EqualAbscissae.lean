import MarketMaking.Estimation.Regression
import MarketMaking.Proofs.Binary64.Finite
import MarketMaking.Proofs.Binary64.Units

/-!
# Fitting a line to equal abscissae

The spread of equal abscissae is a difference of two products that are the same in exact arithmetic.
On doubles each of the two is rounded on its own way, so they may come out different. Then no want
of spread is noticed, and a line is fitted whose slope is a quotient of rounding errors. The two
agree as long as nothing is rounded on the way, which is the case for abscissae of few digits.
-/

namespace MarketMaking

namespace Binary64

/-! ### Adding up a number -/

/-- A number added up `n` times, rounding every sum. -/
def roundedTotal (q : ℚ) : Nat → ℚ
  | 0 => 0
  | n + 1 => nearest (roundedTotal q n + q)

private theorem roundedTotal_nonneg {q : ℚ} (nonneg : 0 ≤ q) (n : Nat) : 0 ≤ roundedTotal q n := by
  induction n with
  | zero => exact le_rfl
  | succ n ih => exact nearest_nonneg (add_nonneg ih nonneg)

private theorem roundedTotal_neg (q : ℚ) (n : Nat) : roundedTotal (-q) n = -roundedTotal q n := by
  induction n with
  | zero => exact neg_zero.symm
  | succ n ih => rw [roundedTotal, roundedTotal, ih, ← neg_add, nearest_neg]

private theorem roundedTotal_zero (n : Nat) : roundedTotal 0 n = 0 := by
  induction n with
  | zero => rfl
  | succ n ih => rw [roundedTotal, ih, add_zero, nearest_zero]

private theorem abs_roundedTotal (q : ℚ) (n : Nat) : |roundedTotal q n| = roundedTotal |q| n := by
  rcases le_total 0 q with hpos | hneg
  · rw [abs_of_nonneg hpos, abs_of_nonneg (roundedTotal_nonneg hpos n)]
  · rw [abs_of_nonpos hneg, roundedTotal_neg, ← abs_neg, ← roundedTotal_neg,
      abs_of_nonneg (roundedTotal_nonneg (neg_nonneg.mpr hneg) n)]

private theorem limit_le_nearest_add {q r : ℚ} (le : limit ≤ q) (nonneg : 0 ≤ r) :
    limit ≤ nearest (q + r) := by
  rw [← nearest_limit]
  exact nearest_mono (le.trans (le_add_of_nonneg_right nonneg))

private theorem sum_replicate_succ (x : Float) (n : Nat) :
    Scalar.sum (List.replicate (n + 1) x) = Scalar.sum (List.replicate n x) + x := by
  unfold Scalar.sum
  rw [List.replicate_succ', List.foldl_append]
  rfl

variable {x : Float} {n : Nat}

private theorem value_sum_replicate (finite : (Scalar.sum (List.replicate n x)).isFinite = true) :
    value (Scalar.sum (List.replicate n x)) = roundedTotal (value x) n := by
  induction n with
  | zero =>
    change value (-Scalar.zero) = 0
    decide +kernel
  | succ n ih =>
    rw [sum_replicate_succ] at finite ⊢
    obtain ⟨htotal, hx⟩ := isFinite_of_isFinite_add finite
    rw [(value_add htotal hx).2, ih htotal]
    rfl

private theorem isFinite_sum_replicate (hx : x.isFinite = true)
    (inside : |roundedTotal (value x) n| < limit) :
    (Scalar.sum (List.replicate n x)).isFinite = true := by
  induction n with
  | zero =>
    change (-Scalar.zero : Float).isFinite = true
    decide +kernel
  | succ n ih =>
    have hbefore : |roundedTotal (value x) n| < limit := by
      rw [abs_roundedTotal] at inside ⊢
      by_contra hbeyond
      exact inside.not_ge (limit_le_nearest_add (not_lt.mp hbeyond) (abs_nonneg _))
    have htotal := ih hbefore
    obtain ⟨hknown, hvalue⟩ := value_add htotal hx
    rw [sum_replicate_succ, isFinite_iff, hvalue, value_sum_replicate htotal]
    exact ⟨hknown, inside⟩

/-! ### The two products -/

/-- The number of terms times the total of the square, with every operation rounded. -/
def totalOfSquares (q : ℚ) (n : Nat) : ℚ :=
  nearest (nearest n * roundedTotal (nearest (q * q)) n)

/-- The square of the total, with every operation rounded. -/
def squareOfTotal (q : ℚ) (n : Nat) : ℚ := nearest (roundedTotal q n * roundedTotal q n)

private theorem totalOfSquares_nonneg (q : ℚ) (n : Nat) : 0 ≤ totalOfSquares q n :=
  nearest_nonneg (mul_nonneg (nearest_nonneg (Nat.cast_nonneg n))
    (roundedTotal_nonneg (nearest_nonneg (mul_self_nonneg q)) n))

private theorem squareOfTotal_nonneg (q : ℚ) (n : Nat) : 0 ≤ squareOfTotal q n :=
  nearest_nonneg (mul_self_nonneg _)

variable {v : Float}

private theorem value_mul_sum_replicate (hv : v.isFinite = true)
    (finite : (Scalar.ofNat n * Scalar.sum (List.replicate n (v * v))).isFinite = true) :
    value (Scalar.ofNat n * Scalar.sum (List.replicate n (v * v))) =
      totalOfSquares (value v) n := by
  obtain ⟨hcount, htotal⟩ := isFinite_of_isFinite_mul finite
  rw [(value_mul hcount htotal).2, value_sum_replicate htotal, (value_mul hv hv).2,
    (value_scalar n).2]
  rfl

private theorem isFinite_mul_sum_replicate (hv : v.isFinite = true) (pos : 0 < n)
    (few : nearest n < limit) (inside : totalOfSquares (value v) n < limit) :
    (Scalar.ofNat n * Scalar.sum (List.replicate n (v * v))).isFinite = true := by
  obtain ⟨hknown, hcount⟩ := value_scalar n
  have hone : 1 ≤ nearest n := by
    rw [← Nat.cast_one, ← nearest_natCast (n := 1) (by decide)]
    exact nearest_mono (Nat.cast_le.mpr pos)
  have hfew : (Scalar.ofNat n : Float).isFinite = true := by
    rw [isFinite_iff_of_nonneg hknown (by rw [hcount]; linarith), hcount]
    exact few
  obtain ⟨hknownSquare, hsquare⟩ := value_mul hv hv
  have hnonneg : 0 ≤ value (v * v) := hsquare ▸ nearest_nonneg (mul_self_nonneg _)
  have htotal : roundedTotal (value (v * v)) n < limit := by
    by_contra hbeyond
    have hle : limit ≤ nearest n * roundedTotal (value (v * v)) n :=
      (not_lt.mp hbeyond).trans (le_mul_of_one_le_left (roundedTotal_nonneg hnonneg n) hone)
    have hproduct := nearest_mono hle
    rw [nearest_limit, hsquare] at hproduct
    exact inside.not_ge hproduct
  have hfinite : (v * v).isFinite = true := by
    rw [isFinite_iff_of_nonneg hknownSquare hnonneg]
    by_contra hbeyond
    obtain ⟨k, rfl⟩ := Nat.exists_eq_succ_of_ne_zero pos.ne'
    rw [Nat.succ_eq_add_one, roundedTotal, add_comm] at htotal
    exact htotal.not_ge (limit_le_nearest_add (not_lt.mp hbeyond) (roundedTotal_nonneg hnonneg k))
  have hsum := isFinite_sum_replicate hfinite
    (by rwa [abs_of_nonneg (roundedTotal_nonneg hnonneg n)])
  obtain ⟨hknownProduct, hproduct⟩ := value_mul hfew hsum
  rw [value_sum_replicate hsum, hsquare, hcount] at hproduct
  refine (isFinite_iff_of_nonneg hknownProduct ?_).mpr ?_
  · rw [hproduct]
    exact totalOfSquares_nonneg _ _
  · rwa [hproduct]

private theorem value_sum_replicate_mul_self
    (finite : (Scalar.sum (List.replicate n v) * Scalar.sum (List.replicate n v)).isFinite = true) :
    value (Scalar.sum (List.replicate n v) * Scalar.sum (List.replicate n v)) =
      squareOfTotal (value v) n := by
  obtain ⟨htotal, -⟩ := isFinite_of_isFinite_mul finite
  rw [(value_mul htotal htotal).2, value_sum_replicate htotal]
  rfl

private theorem isFinite_sum_replicate_mul_self (hv : v.isFinite = true)
    (inside : squareOfTotal (value v) n < limit) :
    (Scalar.sum (List.replicate n v) * Scalar.sum (List.replicate n v)).isFinite = true := by
  have htotal : |roundedTotal (value v) n| < limit := by
    by_contra hbeyond
    have hone : 1 ≤ limit := by
      unfold limit
      exact one_le_pow₀ one_le_two
    have hle : limit ≤ roundedTotal (value v) n * roundedTotal (value v) n := by
      rw [← abs_mul_abs_self]
      exact (not_lt.mp hbeyond).trans
        (le_mul_of_one_le_left (abs_nonneg _) (hone.trans (not_lt.mp hbeyond)))
    have hsquare := nearest_mono hle
    rw [nearest_limit] at hsquare
    exact inside.not_ge hsquare
  have hsum := isFinite_sum_replicate hv htotal
  obtain ⟨hknown, hvalue⟩ := value_mul hsum hsum
  rw [value_sum_replicate hsum] at hvalue
  refine (isFinite_iff_of_nonneg hknown ?_).mpr ?_
  · rw [hvalue]
    exact squareOfTotal_nonneg _ _
  · rwa [hvalue]

end Binary64

open Binary64

namespace Line

/-- The spread of equal abscissae. -/
def equalSpread (v : Float) (n : Nat) : Float :=
  Scalar.ofNat n * Scalar.sum (List.replicate n (v * v)) -
    Scalar.sum (List.replicate n v) * Scalar.sum (List.replicate n v)

variable {v : Float} {n : Nat} {ys : List Float}

/-- The spread of equal abscissae is refused if the two products come out equal, or one of them is
beyond the limits. -/
theorem spread_refused_iff (finite : v.isFinite = true) (pos : 0 < n) :
    (Scalar.eq (equalSpread v n) Scalar.zero || !Scalar.isFinite (equalSpread v n)) = true ↔
      totalOfSquares (value v) n = squareOfTotal (value v) n ∨ limit ≤ nearest n ∨
        limit ≤ totalOfSquares (value v) n ∨ limit ≤ squareOfTotal (value v) n := by
  rw [refused_iff]
  unfold equalSpread
  constructor
  · intro hrefused
    by_contra hfew
    push Not at hfew
    obtain ⟨hne, hcount, hsquares, hsquare⟩ := hfew
    have hleft := isFinite_mul_sum_replicate finite pos hcount hsquares
    have hright := isFinite_sum_replicate_mul_self finite hsquare
    have hleftValue := value_mul_sum_replicate finite hleft
    have hrightValue := value_sum_replicate_mul_self hright
    have hzero := hrefused (isFinite_sub hleft hright (hleftValue ▸ totalOfSquares_nonneg _ _)
      (hrightValue ▸ squareOfTotal_nonneg _ _))
    rw [(value_sub hleft hright).2, nearest_sub_eq_zero_iff hleft hright, hleftValue,
      hrightValue] at hzero
    exact hne hzero
  · intro hrefused hspread
    obtain ⟨hleft, hright⟩ := isFinite_of_isFinite_sub hspread
    have hleftValue := value_mul_sum_replicate finite hleft
    have hrightValue := value_sum_replicate_mul_self hright
    have hcount := (abs_lt.mp (isFinite_iff.mp (isFinite_of_isFinite_mul hleft).1).2).2
    have hsquares := (abs_lt.mp (isFinite_iff.mp hleft).2).2
    have hsquare := (abs_lt.mp (isFinite_iff.mp hright).2).2
    rw [(value_scalar n).2] at hcount
    rw [hleftValue] at hsquares
    rw [hrightValue] at hsquare
    have heq := hrefused.resolve_right (by
      push Not
      exact ⟨hcount, hsquares, hsquare⟩)
    rw [(value_sub hleft hright).2, hleftValue, hrightValue, heq, sub_self, nearest_zero]

/-- Nothing is rounded on the way to the spread of equal abscissae of few digits, so it is zero. -/
theorem spread_refused_of_digits {m e : ℤ} (counted : Counted v e m) (pos : 0 < n)
    (few : n * |m| ≤ 2 ^ 26) (low : -537 ≤ e) (high : e ≤ 485) :
    (Scalar.eq (equalSpread v n) Scalar.zero || !Scalar.isFinite (equalSpread v n)) = true := by
  rcases eq_or_ne m 0 with rfl | hm
  · -- Zeros may be too many for their number to have only few digits.
    have hvalue : value v = 0 := by rw [counted.value_eq, Int.cast_zero, zero_mul]
    refine (spread_refused_iff counted.finite pos).mpr (.inl ?_)
    simp only [totalOfSquares, squareOfTotal, hvalue, mul_zero, nearest_zero, roundedTotal_zero]
  · have hn : (1 : ℤ) ≤ n := by omega
    have hm' : 1 ≤ |m| := Int.one_le_abs hm
    have hcount : (n : ℤ) ≤ 2 ^ 26 := (le_mul_of_one_le_right (by omega) hm').trans few
    have hdigits : |m| ≤ 2 ^ 26 := (le_mul_of_one_le_left (by omega) hn).trans few
    have hsum : ∀ {x : Float} {k f : ℤ}, Counted x f k → n * |k| < 2 ^ 53 → -1074 ≤ f →
        f ≤ 971 → Counted (Scalar.sum (List.replicate n x)) f (n * k) := by
      intro x k f hx hsmall hlow hhigh
      have hterms : ∀ a ∈ List.replicate n (), Counted x f k := fun _ _ ↦ hx
      simpa using Counted.sum hterms (by simpa using hsmall) hlow hhigh
    have hproduct : n * |m| * (n * |m|) ≤ 2 ^ 52 := mul_le_mul few few (by positivity) (by decide)
    have hroot : |m * m| ≤ 2 ^ 52 := by
      rw [abs_mul]
      exact mul_le_mul hdigits hdigits (abs_nonneg m) (by decide)
    have hroots : n * |m * m| ≤ 2 ^ 52 := by
      rw [abs_mul, ← mul_assoc]
      exact mul_le_mul few hdigits (abs_nonneg m) (by decide)
    have heq : (n : ℤ) * (n * (m * m)) = n * m * (n * m) := by ring
    have hsame : |(n : ℤ) * m * (n * m)| ≤ 2 ^ 52 := by rwa [abs_mul, abs_mul, Nat.abs_cast]
    have htotal := hsum counted (by omega) (by omega) (by omega)
    have hsquares := hsum (counted.mul counted (by omega) (by omega) (by omega)) (by omega)
      (by omega) (by omega)
    have hleft := (Counted.ofNat (n := n) (by omega)).mul hsquares (by rw [heq]; omega) (by omega)
      (by omega)
    have hright := htotal.mul htotal (by omega) (by omega) (by omega)
    rw [zero_add, heq] at hleft
    have hspread := hleft.sub hright (by rw [sub_self]; decide) (by omega) (by omega)
    rw [sub_self] at hspread
    exact refused_iff.mpr fun _ ↦ hspread.value_eq.trans (by rw [Int.cast_zero, zero_mul])

/-- A line is fitted to equal abscissae, or they are refused for their want of spread. They are
refused if the two products of their spread come out equal, rounding every operation, or one of them
is beyond the limits, and only then. In particular they are refused if they have so few digits that
nothing is rounded. -/
theorem rejects_equal_iff (finite : v.isFinite = true) (two : 2 ≤ n) (length : ys.length = n) :
    ((∃ line, Line.fit (List.replicate n v) ys = .ok line) ∨
      Line.fit (List.replicate n v) ys = .error (.degenerateFit .noVariance)) ∧
      (Line.fit (List.replicate n v) ys = .error (.degenerateFit .noVariance) ↔
        totalOfSquares (value v) n = squareOfTotal (value v) n ∨ limit ≤ nearest n ∨
          limit ≤ totalOfSquares (value v) n ∨ limit ≤ squareOfTotal (value v) n) ∧
      ∀ m e : ℤ, value v = m * 2 ^ e → n * |m| ≤ 2 ^ 26 → -537 ≤ e → e ≤ 485 →
        Line.fit (List.replicate n v) ys = .error (.degenerateFit .noVariance) := by
  have hfit : ∃ line : Line Float, Line.fit (List.replicate n v) ys =
      if (Scalar.eq (equalSpread v n) Scalar.zero || !Scalar.isFinite (equalSpread v n)) = true then
        .error (.degenerateFit .noVariance)
      else .ok line := by
    unfold Line.fit
    rw [List.length_replicate, length, if_neg (not_not_intro rfl), if_neg (by omega),
      List.map_replicate]
    exact ⟨_, rfl⟩
  have hpos : 0 < n := by omega
  obtain ⟨line, hfit⟩ := hfit
  have hrefused : Line.fit (List.replicate n v) ys = .error (.degenerateFit .noVariance) ↔
      (Scalar.eq (equalSpread v n) Scalar.zero || !Scalar.isFinite (equalSpread v n)) = true := by
    rw [hfit]
    split
    · next h => exact iff_of_true rfl h
    · next h => exact iff_of_false (nofun) h
  refine ⟨?_, hrefused.trans (spread_refused_iff finite hpos), ?_⟩
  · rw [hfit]
    split
    · exact .inr rfl
    · exact .inl ⟨line, rfl⟩
  · intro m e hvalue few low high
    exact hrefused.mpr (spread_refused_of_digits ⟨finite, hvalue⟩ hpos few low high)

/-- Three abscissae of two binary digits are refused. -/
theorem rejects_equal_iff_short :
    let v : Float := 0.75
    let ys : List Float := [1, 2, 4]
    v.isFinite = true ∧ 2 ≤ 3 ∧ ys.length = 3 ∧
      Line.fit (List.replicate 3 v) ys = .error (.degenerateFit .noVariance) := by
  intro v ys
  have hfinite : v.isFinite = true := by decide +kernel
  have hlength : ys.length = 3 := rfl
  have hvalue : value v = (3 : ℤ) * 2 ^ (-2 : ℤ) := by decide +kernel
  have hrefused : Line.fit (List.replicate 3 v) ys = .error (.degenerateFit .noVariance) :=
    (rejects_equal_iff hfinite (by decide) hlength).2.2 3 (-2) hvalue (by decide) (by decide)
      (by decide)
  exact ⟨hfinite, by decide, hlength, hrefused⟩

/-- Six abscissae of one tenth are not refused: a line with a slope of 16 is fitted to them. -/
theorem slope_of_equal_abscissae :
    let v : Float := 0.1
    let ys : List Float := [1, 2, 3, 4, 5, 6]
    v.isFinite = true ∧ ys.length = 6 ∧ (∀ y ∈ ys, y.isFinite = true) ∧
      ∃ line, Line.fit (List.replicate 6 v) ys = .ok line ∧ Float.beq line.slope 16 = true := by
  intro v ys
  have hslope : (Line.fit (List.replicate 6 v) ys).toOption.any (Float.beq ·.slope 16) = true := by
    decide +kernel
  refine ⟨by decide +kernel, rfl, by decide +kernel, ?_⟩
  cases hfit : Line.fit (List.replicate 6 v) ys with
  | error e =>
    rw [hfit] at hslope
    cases hslope
  | ok line =>
    rw [hfit] at hslope
    exact ⟨line, rfl, hslope⟩

end Line

end MarketMaking
