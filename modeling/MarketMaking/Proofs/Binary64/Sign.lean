import MarketMaking.Binary64.Scalar
import MarketMaking.Proofs.Binary64.Packing

/-!
# Signs of doubles

The arithmetic of doubles is symmetric: it handles signs and absolute values apart, and rounds the
absolute values. So negating the operands of a sum, or one operand of a product, negates the result,
but for the sign of a zero. The sign of a zero matters to no operation other than a division by it.
-/

namespace MarketMaking.Binary64

open Float.Model Float.Model.UnpackedFloat

/-! ### Signs -/

namespace Sign

/-- Negating twice changes nothing. -/
@[simp] theorem neg_neg (s : Sign) : - -s = s := by
  cases s <;> rfl

/-- A negated factor negates the product. -/
@[simp] theorem neg_mul (s t : Sign) : -s * t = -(s * t) := by
  cases s <;> cases t <;> rfl

/-- A negated dividend negates the quotient. -/
@[simp] theorem neg_div (s t : Sign) : -s / t = -(s / t) := by
  cases s <;> cases t <;> rfl

/-- A negated sign negates the number. -/
@[simp] theorem neg_apply (s : Sign) (n : ℤ) : (-s).apply n = -s.apply n := by
  cases s
  · exact (Int.neg_neg n).symm
  · rfl

end Sign

private theorem ofParts_neg (s : Sign) (m : Nat) (e : ℤ) : ofParts (-s) m e =
    (ofParts s m e).neg := by
  rcases Nat.eq_zero_or_pos m with rfl | pos
  · rw [ofParts_zero, ofParts_zero]
    rfl
  · rw [ofParts_of_pos _ pos, ofParts_of_pos _ pos]
    rfl

/-! ### Unpacked doubles that are alike -/

/-- Two unpacked doubles are alike when they are the same but for the sign of a zero. -/
inductive Like : UnpackedFloat → UnpackedFloat → Prop where
  | refl (f : UnpackedFloat) : Like f f
  | zero (s t : Sign) : Like (.zero s) (.zero t)

attribute [simp] Like.refl Like.zero

namespace Like

variable {f f' g g' h : UnpackedFloat}

/-- What is the same is alike. -/
theorem of_eq (eq : f = g) : Like f g := eq ▸ .refl f

theorem symm (like : Like f g) : Like g f := by
  cases like <;> simp

theorem trans (first : Like f g) (second : Like g h) : Like f h := by
  cases first <;> cases second <;> simp

/-- Negatives of doubles that are alike are alike. -/
theorem neg (like : Like f g) : Like f.neg g.neg := by
  cases like with
  | refl => simp
  | zero s t => exact .zero _ _

/-- Sums of doubles that are alike are alike. -/
theorem add (left : Like f f') (right : Like g g') :
    Like (UnpackedFloat.add Format.binary64 f g) (UnpackedFloat.add Format.binary64 f' g') := by
  have hleft : Like (UnpackedFloat.add Format.binary64 f g)
      (UnpackedFloat.add Format.binary64 f' g) := by
    cases left with
    | refl => simp
    | zero s t => cases g with
      | zero u => cases s <;> cases t <;> cases u <;> exact .zero _ _
      | _ => exact .refl _
  have hright : Like (UnpackedFloat.add Format.binary64 f' g)
      (UnpackedFloat.add Format.binary64 f' g') := by
    cases right with
    | refl => simp
    | zero s t => cases f' with
      | zero u => cases s <;> cases t <;> cases u <;> exact .zero _ _
      | _ => exact .refl _
  exact hleft.trans hright

/-- Products of doubles that are alike are alike. -/
theorem mul (left : Like f f') (right : Like g g') :
    Like (UnpackedFloat.mul Format.binary64 f g) (UnpackedFloat.mul Format.binary64 f' g') := by
  have hleft : Like (UnpackedFloat.mul Format.binary64 f g)
      (UnpackedFloat.mul Format.binary64 f' g) := by
    cases left with
    | refl => simp
    | zero s t => cases g with
      | zero u => exact .zero _ _
      | finite u => exact .zero _ _
      | _ => exact .refl _
  have hright : Like (UnpackedFloat.mul Format.binary64 f' g)
      (UnpackedFloat.mul Format.binary64 f' g') := by
    cases right with
    | refl => simp
    | zero s t => cases f' with
      | zero u => exact .zero _ _
      | finite u => exact .zero _ _
      | _ => exact .refl _
  exact hleft.trans hright

/-- Quotients of doubles that are alike by the same one are alike. -/
theorem div (like : Like f f') (g : UnpackedFloat) :
    Like (UnpackedFloat.div Format.binary64 f g) (UnpackedFloat.div Format.binary64 f' g) := by
  cases like with
  | refl => simp
  | zero s t =>
    cases g with
    | infinity u => exact .zero _ _
    | finite u => exact .zero _ _
    | _ => exact .refl _

/-- Square roots of doubles that are alike are alike. -/
theorem sqrt (like : Like f g) :
    Like (UnpackedFloat.sqrt Format.binary64 f) (UnpackedFloat.sqrt Format.binary64 g) := by
  cases like with
  | refl => simp
  | zero s t => exact .zero _ _

/-- Doubles that are alike compare alike. -/
theorem compare_eq (left : Like f f') (right : Like g g') : f.compare g = f'.compare g' := by
  have hleft : f.compare g = f'.compare g := by
    cases left with
    | refl => rfl
    | zero s t => cases g with
      | finite s => cases s <;> rfl
      | infinity s => cases s <;> rfl
      | _ => rfl
  have hright : f'.compare g = f'.compare g' := by
    cases right with
    | refl => rfl
    | zero s t => cases f' with
      | finite s => cases s <;> rfl
      | infinity s => cases s <;> rfl
      | _ => rfl
  exact hleft.trans hright

/-- Doubles that are alike are unknown alike. -/
theorem isNaN_eq (like : Like f g) : f.isNaN = g.isNaN := by
  cases like <;> rfl

/-- Doubles that are alike are finite alike. -/
theorem isFinite_eq (like : Like f g) : f.isFinite = g.isFinite := by
  cases like <;> rfl

end Like

/-! ### Negatives of unpacked doubles -/

namespace Unpacked

/-- Negating twice changes nothing. -/
@[simp] theorem neg_neg (f : UnpackedFloat) : f.neg.neg = f := by
  cases f with
  | notANumber => rfl
  | infinity s => exact congrArg _ (Sign.neg_neg s)
  | zero s => exact congrArg _ (Sign.neg_neg s)
  | finite s => cases s <;> rfl

/-- A difference is the sum with the negative. -/
theorem sub_eq_add_neg (f g : UnpackedFloat) :
    UnpackedFloat.sub Format.binary64 f g = UnpackedFloat.add Format.binary64 f g.neg := by
  cases f <;> cases g
  case finite.finite =>
    dsimp only [UnpackedFloat.sub, UnpackedFloat.add, UnpackedFloat.neg]
    rw [Sign.neg_apply, Int.sub_eq_add_neg]
  all_goals rfl

/-- Terms may change places. -/
theorem add_comm (f g : UnpackedFloat) :
    UnpackedFloat.add Format.binary64 f g = UnpackedFloat.add Format.binary64 g f := by
  cases f <;> cases g
  case infinity.infinity s t => cases s <;> cases t <;> rfl
  case zero.zero s t => cases s <;> cases t <;> rfl
  case finite.finite =>
    dsimp only [UnpackedFloat.add]
    rw [Int.min_comm, Int.add_comm]
  all_goals rfl

private theorem roundWithAccuracy_neg (s : Sign) (m : Nat) (e : ℤ) (a : Accuracy) :
    roundWithAccuracy Format.binary64 (-s) m e a =
      (roundWithAccuracy Format.binary64 s m e a).neg := by
  rw [roundWithAccuracy_eq (-s) rfl, roundWithAccuracy_eq s rfl, ofParts_neg]

private theorem normalize_neg (m e : ℤ) (zero : Sign) :
    Like (UnpackedFloat.normalize Format.binary64 (-m) e zero)
      (UnpackedFloat.normalize Format.binary64 m e zero).neg := by
  have hround (s : Sign) (m : Nat) : UnpackedFloat.round Format.binary64 (-s) m e =
      (UnpackedFloat.round Format.binary64 s m e).neg := roundWithAccuracy_neg s _ _ _
  unfold UnpackedFloat.normalize
  rcases lt_trichotomy m 0 with hlt | rfl | hgt
  · rw [Int.compare_eq_lt.mpr hlt, Int.compare_eq_gt.mpr (by omega)]
    exact .of_eq (hround .negative _)
  · exact .zero _ _
  · rw [Int.compare_eq_gt.mpr hgt, Int.compare_eq_lt.mpr (by omega), Int.neg_neg]
    exact .of_eq (hround .positive _)

/-- Negating both terms negates the sum. -/
theorem neg_add_neg (f g : UnpackedFloat) :
    Like (UnpackedFloat.add Format.binary64 f.neg g.neg)
      (UnpackedFloat.add Format.binary64 f g).neg := by
  cases f <;> cases g
  case finite.finite s m e hm t n f hn =>
    dsimp only [UnpackedFloat.add, UnpackedFloat.neg]
    rw [Sign.neg_apply, Sign.neg_apply, ← Int.neg_add]
    apply normalize_neg
  case infinity.infinity s t => cases s <;> cases t <;> exact .refl _
  case zero.zero s t => cases s <;> cases t <;> exact .zero _ _
  all_goals exact .refl _

/-- A negated factor negates the product. -/
theorem neg_mul (f g : UnpackedFloat) :
    UnpackedFloat.mul Format.binary64 f.neg g = (UnpackedFloat.mul Format.binary64 f g).neg := by
  cases f <;> cases g
  case finite.finite s m e hm t n f hn =>
    change roundWithAccuracy Format.binary64 (-s * t) (m * n) (e + f) .exact = _
    rw [Sign.neg_mul, roundWithAccuracy_neg]
    rfl
  all_goals first
    | rfl
    | exact congrArg _ (Sign.neg_mul _ _)

/-- Factors may change places. -/
theorem mul_comm (f g : UnpackedFloat) :
    UnpackedFloat.mul Format.binary64 f g = UnpackedFloat.mul Format.binary64 g f := by
  have hsign (s t : Sign) : s * t = t * s := by cases s <;> cases t <;> rfl
  cases f <;> cases g
  case finite.finite s m e hm t n f hn =>
    change roundWithAccuracy Format.binary64 (s * t) (m * n) (e + f) .exact = _
    rw [hsign, Nat.mul_comm, Int.add_comm]
    rfl
  all_goals first
    | rfl
    | exact congrArg _ (hsign _ _)

/-- A negated dividend negates the quotient. -/
theorem neg_div (f g : UnpackedFloat) :
    UnpackedFloat.div Format.binary64 f.neg g = (UnpackedFloat.div Format.binary64 f g).neg := by
  cases f <;> cases g
  case finite.finite s m e hm t n f hn =>
    change roundWithAccuracy Format.binary64 (-s / t) _ _ _ = _
    rw [Sign.neg_div, roundWithAccuracy_neg]
    rfl
  all_goals first
    | rfl
    | exact congrArg _ (Sign.neg_div _ _)

/-- Negatives compare the other way round. -/
theorem compare_neg (f g : UnpackedFloat) : f.neg.compare g.neg = g.compare f := by
  have hswap (m n : Nat) (e f : ℤ) : (compare e f).then (compare m n) =
      ((compare f e).then (compare n m)).swap := by
    rw [Ordering.swap_then, Int.compare_swap, Nat.compare_swap]
  cases f with
  | notANumber => cases g <;> rfl
  | infinity s =>
    cases g with
    | finite t => cases s <;> cases t <;> rfl
    | infinity t => cases s <;> cases t <;> rfl
    | _ => cases s <;> rfl
  | zero s =>
    cases g with
    | finite t => cases t <;> rfl
    | infinity t => cases t <;> rfl
    | _ => rfl
  | finite s m e hm =>
    cases g with
    | notANumber => cases s <;> rfl
    | infinity t => cases s <;> cases t <;> rfl
    | zero t => cases s <;> rfl
    | finite t n f hn =>
      cases s <;> cases t
      · exact congrArg some (hswap m n e f)
      · rfl
      · rfl
      · exact congrArg some (hswap n m f e).symm

end Unpacked

/-! ### Packing -/

/-- What is read back of an unpacked double when it is packed. -/
def repacked (f : UnpackedFloat) : UnpackedFloat :=
  UnpackedFloat.unpack Format.binary64 (UnpackedFloat.pack Format.binary64 f)

/-- Packing and reading back keeps what is alike. -/
theorem Like.repacked {f g : UnpackedFloat} (like : Like f g) :
    Like (repacked f) (Binary64.repacked g) := by
  cases like with
  | refl => simp
  | zero s t =>
    have hzero (s : Sign) : Binary64.repacked (.zero s) = .zero s := unpack_packComponents s _ _
    simp [hzero]

private theorem ofFields_neg (s : Sign) (field fraction : Nat) :
    ofFields (-s) field fraction = (ofFields s field fraction).neg := by
  unfold ofFields
  rw [ofParts_neg, ofParts_neg]
  split
  · split <;> rfl
  · split <;> rfl

/-- Packing and reading back keeps negatives. -/
theorem repacked_neg (f : UnpackedFloat) : repacked f.neg = (repacked f).neg := by
  have hcomponents (s : Sign) (field : BitVec 11) (fraction : BitVec 52) :
      UnpackedFloat.unpack Format.binary64 (packComponents Format.binary64 (-s) field fraction) =
        (UnpackedFloat.unpack Format.binary64
          (packComponents Format.binary64 s field fraction)).neg := by
    rw [unpack_packComponents, unpack_packComponents, ofFields_neg]
  unfold repacked
  cases f with
  | notANumber => rfl
  | infinity s => exact hcomponents s _ _
  | zero s => exact hcomponents s _ _
  | finite s m e hm =>
    change UnpackedFloat.unpack Format.binary64
      (UnpackedFloat.pack Format.binary64 (.finite (-s) m e hm)) = _
    rw [pack_finite, pack_finite]
    split
    · exact hcomponents s _ _
    · split <;> exact hcomponents s _ _

private theorem repacked_unpack (x : Float) : repacked x.toModel.unpack = x.toModel.unpack := by
  have fits : Fits x.toModel.unpack := fits_unpack _
  unfold repacked
  generalize x.toModel.unpack = f at fits
  cases f with
  | notANumber => rfl
  | infinity s => exact unpack_packComponents s _ _
  | zero s => exact unpack_packComponents s _ _
  | finite s m e pos =>
    obtain ⟨lt, bound, full⟩ := fits.canonical
    have habs := fits.abs_lt rfl
    have hnonneg : 0 ≤ (m : ℚ) * 2 ^ e := mul_nonneg (Nat.cast_nonneg m) (zpow_pos two_pos e).le
    change |signed s ((m : ℚ) * 2 ^ e)| < limit at habs
    rw [abs_signed, abs_of_nonneg hnonneg] at habs
    rw [unpack_pack_finite s pos lt bound full, if_pos ((mul_lt_limit_iff lt full).mp habs)]

/-- The negative of a double is read with the negated sign. -/
theorem unpack_neg (x : Float) : (-x).toModel.unpack = x.toModel.unpack.neg := by
  change repacked x.toModel.unpack.neg = _
  rw [repacked_neg, repacked_unpack]

end MarketMaking.Binary64
