import MarketMaking.Proofs.Binary64.Order
import MarketMaking.Proofs.Binary64.Sign

/-!
# Doubles up to the sign of a zero

Two doubles are the same when they are equal in value or both unknown, and opposite when one is the
same as the negative of the other. Arithmetic, comparison and rounding respect both relations: what
they make of opposite doubles is opposite, or the same where two signs meet.
-/

namespace MarketMaking.Binary64

open Float.Model Float.Model.UnpackedFloat

/-- Are two doubles equal in value, or both unknown? -/
def Same (x y : Float) : Prop := Float.beq x y = true ∨ (x.isNaN = true ∧ y.isNaN = true)

/-- Is one double the same as the negative of the other? -/
def Opposite (x y : Float) : Prop := Same x (-y)

/-! ### Reading -/

private theorem compare_eq_iff {f g : UnpackedFloat} :
    f.compare g = some .eq ↔ Like f g ∧ f.isNaN = false := by
  have hparts {m n : Nat} {e f : ℤ} (eq : (compare e f).then (compare m n) = .eq) :
      e = f ∧ m = n := by
    obtain ⟨he, hm⟩ := Ordering.then_eq_eq.mp eq
    exact ⟨Int.compare_eq_eq.mp he, Nat.compare_eq_eq.mp hm⟩
  constructor
  · intro eq
    cases f with
    | notANumber => cases eq
    | infinity s =>
      cases g with
      | infinity t => cases s <;> cases t <;> first | exact ⟨.refl _, rfl⟩ | cases eq
      | _ => cases s <;> cases eq
    | zero s =>
      cases g with
      | zero t => exact ⟨.zero s t, rfl⟩
      | infinity t => cases t <;> cases eq
      | finite t => cases t <;> cases eq
      | notANumber => cases eq
    | finite s m e hm =>
      cases g with
      | finite t n f hn =>
        cases s <;> cases t
        · obtain ⟨rfl, rfl⟩ := hparts (Ordering.swap_eq_eq.mp (Option.some.inj eq))
          exact ⟨.refl _, rfl⟩
        · cases eq
        · cases eq
        · obtain ⟨rfl, rfl⟩ := hparts (Option.some.inj eq)
          exact ⟨.refl _, rfl⟩
      | infinity t => cases s <;> cases t <;> cases eq
      | _ => cases s <;> cases eq
  · rintro ⟨like, known⟩
    cases like with
    | zero s t => rfl
    | refl f =>
      cases f with
      | notANumber => cases known
      | infinity s => cases s <;> rfl
      | zero s => rfl
      | finite s m e hm =>
        have hself : (compare e e).then (compare m m) = .eq := by
          rw [Int.compare_eq_eq.mpr rfl, Nat.compare_eq_eq.mpr rfl]
          rfl
        cases s with
        | positive => exact congrArg some hself
        | negative => exact congrArg (some ·.swap) hself

/-- Doubles are the same if they are read alike. -/
theorem same_iff {x y : Float} : Same x y ↔ Like x.toModel.unpack y.toModel.unpack := by
  have hbeq : Float.beq x y = true ↔ x.toModel.unpack.compare y.toModel.unpack = some .eq := by
    change (x.toModel.unpack.compare y.toModel.unpack == some Ordering.eq) = true ↔ _
    rw [beq_iff_eq]
  rw [Same, hbeq, compare_eq_iff]
  change _ ∨ (x.toModel.unpack.isNaN = true ∧ y.toModel.unpack.isNaN = true) ↔ _
  generalize x.toModel.unpack = f
  generalize y.toModel.unpack = g
  constructor
  · rintro (⟨like, -⟩ | ⟨hf, hg⟩)
    · exact like
    · cases f with
      | notANumber => cases g with
        | notANumber => exact .refl _
        | _ => cases hg
      | _ => cases hf
  · intro like
    cases hf : f.isNaN with
    | false => exact .inl ⟨like, rfl⟩
    | true =>
      cases like with
      | refl => exact .inr ⟨rfl, hf⟩
      | zero s t => cases hf

/-- Doubles are opposite if one is read like the negative of the other. -/
theorem opposite_iff {x y : Float} :
    Opposite x y ↔ Like x.toModel.unpack y.toModel.unpack.neg := by
  rw [Opposite, same_iff, unpack_neg]

/-- A double is below another if it is read so. -/
theorem lt_iff_compare {x y : Float} :
    Float.lt x y = true ↔ x.toModel.unpack.compare y.toModel.unpack = some .lt := by
  unfold Float.lt
  rw [decide_eq_true_iff]
  change (x.toModel.unpack.compare y.toModel.unpack == some Ordering.lt) = true ↔ _
  rw [beq_iff_eq]

/-! ### Doubles that are the same -/

namespace Same

variable {x x' y y' z : Float}

@[simp] theorem refl (x : Float) : Same x x := same_iff.mpr (.refl _)

theorem symm (same : Same x y) : Same y x := same_iff.mpr (same_iff.mp same).symm

theorem trans (first : Same x y) (second : Same y z) : Same x z :=
  same_iff.mpr ((same_iff.mp first).trans (same_iff.mp second))

/-- Negatives of the same number are the same. -/
theorem neg (same : Same x x') : Same (-x) (-x') := by
  rw [same_iff, unpack_neg, unpack_neg]
  exact (same_iff.mp same).neg

/-- Negating twice changes nothing. -/
theorem neg_neg (x : Float) : Same (- -x) x := by
  rw [same_iff, unpack_neg, unpack_neg, Unpacked.neg_neg]
  exact .refl _

/-- A difference is the sum with the negative. -/
theorem sub_eq_add_neg (x y : Float) : Same (x - y) (x + -y) := by
  rw [same_iff]
  change Like (repacked (UnpackedFloat.sub Format.binary64 x.toModel.unpack y.toModel.unpack))
    (repacked (UnpackedFloat.add Format.binary64 x.toModel.unpack (-y).toModel.unpack))
  rw [unpack_neg, Unpacked.sub_eq_add_neg]
  exact .refl _

/-- Terms may change places. -/
theorem add_comm (x y : Float) : Same (x + y) (y + x) :=
  same_iff.mpr (Like.of_eq (Unpacked.add_comm _ _)).repacked

/-- Factors may change places. -/
theorem mul_comm (x y : Float) : Same (x * y) (y * x) :=
  same_iff.mpr (Like.of_eq (Unpacked.mul_comm _ _)).repacked

/-- Sums of the same terms are the same. -/
theorem add (left : Same x x') (right : Same y y') : Same (x + y) (x' + y') :=
  same_iff.mpr ((same_iff.mp left).add (same_iff.mp right)).repacked

/-- Products of the same factors are the same. -/
theorem mul (left : Same x x') (right : Same y y') : Same (x * y) (x' * y') :=
  same_iff.mpr ((same_iff.mp left).mul (same_iff.mp right)).repacked

/-- Quotients of the same dividend are the same. -/
theorem div (same : Same x x') (y : Float) : Same (x / y) (x' / y) :=
  same_iff.mpr ((same_iff.mp same).div y.toModel.unpack).repacked

/-- Square roots of the same number are the same. -/
theorem sqrt (same : Same x x') : Same x.sqrt x'.sqrt :=
  same_iff.mpr (same_iff.mp same).sqrt.repacked

/-- The same numbers are unknown. -/
theorem isNaN_eq (same : Same x x') : x.isNaN = x'.isNaN := (same_iff.mp same).isNaN_eq

/-- The same numbers are finite. -/
theorem isFinite_eq (same : Same x x') : x.isFinite = x'.isFinite := (same_iff.mp same).isFinite_eq

/-- The same numbers are in the same order. -/
theorem lt_eq (left : Same x x') (right : Same y y') : Float.lt x y = Float.lt x' y' := by
  rw [Bool.eq_iff_iff, lt_iff_compare, lt_iff_compare,
    (same_iff.mp left).compare_eq (same_iff.mp right)]

/-- The same numbers have the same parts, or are zeros. -/
theorem parts (same : Same x x') : ofFloat x = ofFloat x' ∨
    ∃ s t e, ofFloat x = .finite s 0 e ∧ ofFloat x' = .finite t 0 e := by
  have like := same_iff.mp same
  rw [ofFloat_eq, ofFloat_eq]
  generalize x.toModel.unpack = f at like ⊢
  generalize x'.toModel.unpack = f' at like ⊢
  cases like with
  | refl => exact .inl rfl
  | zero s t => exact .inr ⟨_, _, minExponent, rfl, rfl⟩

/-- The same numbers have the same integer part. -/
theorem toInt64_eq (same : Same x x') : toInt64 x = toInt64 x' := by
  unfold toInt64 whole
  rcases same.parts with parts | ⟨s, t, e, hx, hx'⟩
  · rw [parts]
  · have hzero : (ratio 0 e).1 / (ratio 0 e).2 = 0 := by
      cases e <;> simp [ratio]
    rw [hx, hx']
    simp [hzero]

/-- The same numbers are rounded to the same integer. -/
theorem round (same : Same x x') (tie : Tie) :
    Same (Binary64.round tie x) (Binary64.round tie x') := by
  unfold Binary64.round
  rcases same.parts with parts | ⟨s, t, e, hx, hx'⟩
  · rw [parts]
    split
    · simp
    · exact same
  · rw [hx, hx']
    cases e with
    | ofNat e => exact same
    | negSucc e =>
      have hzero : roundDiv tie 0 (pow2 (e + 1)) = 0 := by
        simpa using roundDiv_mul_self tie 0 (pow2_pos (e + 1))
      have hsame : Same (-Float.ofNat 0) (Float.ofNat 0) := .inl (by decide +kernel)
      simp only [hzero]
      cases s <;> cases t
      · simp
      · exact hsame.symm
      · exact hsame
      · simp

/-- The same numbers have the same larger one. -/
theorem max (left : Same x x') (right : Same y y') : Same (Scalar.max x y) (Scalar.max x' y') := by
  change Same (if (y.isNaN || Float.lt y x) = true then x else y)
    (if (y'.isNaN || Float.lt y' x') = true then x' else y')
  rw [right.isNaN_eq, right.lt_eq left]
  split
  · exact left
  · exact right

end Same

/-! ### Doubles that are opposite -/

/-- The negative of a double has the same parts but for the sign. -/
theorem ofFloat_neg (x : Float) : ofFloat (-x) = match ofFloat x with
    | .nan => .nan
    | .infinite negative => .infinite (!negative)
    | .finite negative mantissa exponent => .finite (!negative) mantissa exponent := by
  rw [ofFloat_eq, ofFloat_eq, unpack_neg]
  cases x.toModel.unpack with
  | notANumber => rfl
  | infinity s => cases s <;> rfl
  | zero s => cases s <;> rfl
  | finite s m e hm => cases s <;> rfl

namespace Opposite

variable {x x' y y' : Float}

/-- The negative of a number is opposite to it. -/
@[simp] theorem neg (x : Float) : Opposite (-x) x := Same.refl _

/-- Negatives of opposite numbers are opposite. -/
theorem of_neg (opposite : Opposite x' x) : Opposite (-x') (-x) := Same.neg opposite

/-- What is opposite to the negative is the same. -/
theorem same_neg (opposite : Opposite x' x) : Same (-x') x :=
  (Same.neg opposite).trans (Same.neg_neg x)

/-- The same number is opposite to the negative. -/
theorem of_same (same : Same x' x) : Opposite x' (-x) := same.trans (Same.neg_neg x).symm

/-- Sums of opposite terms are opposite. -/
theorem add (left : Opposite x' x) (right : Opposite y' y) : Opposite (x' + y') (x + y) := by
  have hneg : Same (-x + -y) (-(x + y)) := by
    rw [same_iff, unpack_neg]
    change Like (repacked (UnpackedFloat.add Format.binary64 (-x).toModel.unpack
      (-y).toModel.unpack)) (repacked (UnpackedFloat.add Format.binary64 _ _)).neg
    rw [unpack_neg, unpack_neg, ← repacked_neg]
    exact (Unpacked.neg_add_neg _ _).repacked
  exact (Same.add left right).trans hneg

/-- Products with one opposite factor are opposite. -/
theorem mul (left : Opposite x' x) (right : Same y' y) : Opposite (x' * y') (x * y) := by
  have hneg : Same (-x * y) (-(x * y)) := by
    rw [same_iff, unpack_neg]
    change Like (repacked (UnpackedFloat.mul Format.binary64 (-x).toModel.unpack _))
      (repacked (UnpackedFloat.mul Format.binary64 _ _)).neg
    rw [unpack_neg, ← repacked_neg, Unpacked.neg_mul]
    exact .refl _
  exact (Same.mul left right).trans hneg

/-- Quotients of opposite dividends are opposite. -/
theorem div (opposite : Opposite x' x) (y : Float) : Opposite (x' / y) (x / y) := by
  have hneg : Same (-x / y) (-(x / y)) := by
    rw [same_iff, unpack_neg]
    change Like (repacked (UnpackedFloat.div Format.binary64 (-x).toModel.unpack _))
      (repacked (UnpackedFloat.div Format.binary64 _ _)).neg
    rw [unpack_neg, ← repacked_neg, Unpacked.neg_div]
    exact .refl _
  exact (Same.div opposite y).trans hneg

/-- Products with another opposite factor are opposite. -/
theorem mul_left (left : Same x' x) (right : Opposite y' y) : Opposite (x' * y') (x * y) :=
  ((Same.mul_comm x' y').trans (right.mul left)).trans (Same.mul_comm y x).neg

/-- Where the signs of both factors meet, products are the same. -/
theorem mul_opposite (left : Opposite x' x) (right : Opposite y' y) : Same (x' * y') (x * y) := by
  have hright : Opposite (x' * y') (x * -y) := left.mul right
  have hleft : Opposite (x * -y) (x * y) := mul_left (.refl x) (.neg y)
  exact hright.trans hleft.same_neg

/-- Differences of opposite terms are opposite. -/
theorem sub (left : Opposite x' x) (right : Opposite y' y) : Opposite (x' - y') (x - y) :=
  ((Same.sub_eq_add_neg x' y').trans (left.add right.of_neg)).trans
    (Same.sub_eq_add_neg x y).symm.neg

/-- Differences of opposite terms are the same when the terms change places. -/
theorem sub_swap (left : Opposite x' x) (right : Opposite y' y) : Same (x' - y') (y - x) :=
  (Same.sub_eq_add_neg x' y').trans <| (Same.add left right.same_neg).trans <|
    (Same.add_comm (-x) y).trans (Same.sub_eq_add_neg y x).symm

/-- Adding the same to opposite numbers is subtracting it on the other side. -/
theorem add_same (left : Opposite x' x) (right : Same y' y) : Opposite (x' + y') (x - y) :=
  (left.add (of_same right)).trans (Same.sub_eq_add_neg x y).symm.neg

/-- Subtracting the same from opposite numbers is adding it on the other side. -/
theorem sub_same (left : Opposite x' x) (right : Same y' y) : Opposite (x' - y') (x + y) :=
  (Same.sub_eq_add_neg x' y').trans (left.add right.neg)

/-- Adding opposite numbers is subtracting on the other side. -/
theorem same_add (left : Same x' x) (right : Opposite y' y) : Same (x' + y') (x - y) :=
  (left.add right).trans (Same.sub_eq_add_neg x y).symm

/-- Subtracting opposite numbers is adding on the other side. -/
theorem same_sub (left : Same x' x) (right : Opposite y' y) : Same (x' - y') (x + y) :=
  (Same.sub_eq_add_neg x' y').trans (left.add right.same_neg)

/-- Opposite numbers are unknown alike. -/
theorem isNaN_eq (opposite : Opposite x' x) : x'.isNaN = x.isNaN := by
  have hneg (f : UnpackedFloat) : f.neg.isNaN = f.isNaN := by cases f <;> rfl
  exact (opposite_iff.mp opposite).isNaN_eq.trans (hneg _)

/-- Opposite numbers are finite alike. -/
theorem isFinite_eq (opposite : Opposite x' x) : x'.isFinite = x.isFinite := by
  have hneg (f : UnpackedFloat) : f.neg.isFinite = f.isFinite := by cases f <;> rfl
  exact (opposite_iff.mp opposite).isFinite_eq.trans (hneg _)

/-- Opposite numbers are in the opposite order. -/
theorem lt_eq (left : Opposite x' x) (right : Opposite y' y) : Float.lt x' y' = Float.lt y x := by
  rw [Bool.eq_iff_iff, lt_iff_compare, lt_iff_compare,
    (opposite_iff.mp left).compare_eq (opposite_iff.mp right), Unpacked.compare_neg]

/-- Opposite numbers are rounded to opposite integers. -/
theorem round (opposite : Opposite x' x) (tie : Tie) :
    Opposite (Binary64.round tie x') (Binary64.round tie x) := by
  have hneg : Opposite (Binary64.round tie (-x)) (Binary64.round tie x) := by
    unfold Binary64.round
    rw [ofFloat_neg]
    cases ofFloat x with
    | nan => exact neg x
    | infinite s => exact neg x
    | finite s m e =>
      cases e with
      | ofNat e => exact neg x
      | negSucc e =>
        cases s
        · exact neg _
        · exact of_same (.refl _)
  exact (Same.round opposite tie).trans hneg

/-- The smaller of opposite numbers is opposite to the larger one. -/
theorem min (left : Opposite x' x) (right : Opposite y' y) :
    Opposite (Scalar.min x' y') (Scalar.max x y) := by
  change Opposite (if (y'.isNaN || Float.lt x' y') = true then x' else y')
    (if (y.isNaN || Float.lt y x) = true then x else y)
  rw [right.isNaN_eq, left.lt_eq right]
  split
  · exact left
  · exact right

/-- The larger of opposite numbers is opposite to the smaller one. -/
theorem max (left : Opposite x' x) (right : Opposite y' y) :
    Opposite (Scalar.max x' y') (Scalar.min x y) := by
  change Opposite (if (y'.isNaN || Float.lt y' x') = true then x' else y')
    (if (y.isNaN || Float.lt x y) = true then x else y)
  rw [right.isNaN_eq, right.lt_eq left]
  split
  · exact left
  · exact right

/-- Opposite integers are opposite doubles. -/
theorem ofInt (n : ℤ) : Opposite (Float.ofInt (-n)) (Float.ofInt n) := by
  cases n with
  | ofNat n =>
    cases n with
    | zero => exact .inl (by decide +kernel)
    | succ n => exact neg _
  | negSucc n => exact of_same (.refl _)

end Opposite

end MarketMaking.Binary64
