import Mathlib.Algebra.BigOperators.Group.List.Basic
import Mathlib.Algebra.Order.Field.Basic
import MarketMaking.Config
import MarketMaking.Proofs.Binary64.Whole

/-!
# Exact arithmetic

An ordered field with an unknown number beside its own is a number system for the estimators. No
operation on its numbers rounds, none leaves their range, and a number divided by zero is unknown.
Roots, logarithms, powers and the rounding to integers may be any functions: what is proved over
exact numbers names the properties of these functions that it rests on.
-/

namespace MarketMaking

/-- The functions that scalars have besides the operations of a field and its order. -/
class Elementary (K : Type) where
  sqrt : K → K
  ln : K → K
  exp : K → K
  pow : K → K → K
  roundEven : K → K
  roundAway : K → K
  toInt : K → ℤ

/-- Rational functions in the place of the others. The logarithm is an increasing one, and the
exponential a positive one. -/
@[reducible] def Elementary.coarse : Elementary ℚ where
  sqrt q := q
  ln q := q - 1
  exp q := if 0 ≤ q then 1 + q else 1 / (1 - q)
  pow q _ := q
  roundEven q := Binary64.nearestInt q
  roundAway q := Binary64.awayInt q
  toInt q := ⌊q⌋

/-- A number of a field, or an unknown one. -/
inductive Exact (K : Type) where
  | number (x : K)
  | unknown
  deriving DecidableEq, Repr

namespace Exact

variable {K : Type}

/-- The image of a number under a function. -/
def map (f : K → K) : Exact K → Exact K
  | number x => number (f x)
  | unknown => unknown

/-- The result of an operation on two numbers. -/
def map₂ (f : K → K → K) : Exact K → Exact K → Exact K
  | number x, number y => number (f x y)
  | _, _ => unknown

/-- Are both operands known, and in the given relation? -/
def related (r : K → K → Bool) : Exact K → Exact K → Bool
  | number x, number y => r x y
  | _, _ => false

/-- One of two numbers. An unknown operand is dropped. -/
def choose (f : K → K → K) : Exact K → Exact K → Exact K
  | number x, number y => number (f x y)
  | unknown, y => y
  | x, unknown => x

/-- The quotient of two numbers, if it has one. -/
def quotient [Field K] [DecidableEq K] : Exact K → Exact K → Exact K
  | number x, number y => if y = 0 then unknown else number (x / y)
  | _, _ => unknown

instance [Field K] [LinearOrder K] [Elementary K] : Scalar (Exact K) where
  add := map₂ (· + ·)
  sub := map₂ (· - ·)
  mul := map₂ (· * ·)
  div := quotient
  neg := map (-·)
  ofInt n := number n
  nan := unknown
  sqrt := map Elementary.sqrt
  ln := map Elementary.ln
  exp := map Elementary.exp
  pow := map₂ Elementary.pow
  lt := related fun x y ↦ x < y
  le := related fun x y ↦ x ≤ y
  eq := related fun x y ↦ x = y
  isFinite := fun
    | number _ => true
    | unknown => false
  isNaN := fun
    | number _ => false
    | unknown => true
  min := choose min
  max := choose max
  roundEven := map Elementary.roundEven
  roundAway := map Elementary.roundAway
  toInt := fun
    | number x => Elementary.toInt x
    | unknown => 0

/-- A list of numbers. -/
def numbers (xs : List K) : List (Exact K) := xs.map number

@[simp] theorem length_numbers (xs : List K) : (numbers xs).length = xs.length :=
  List.length_map _

variable [Field K] [LinearOrder K] [Elementary K] {x y : K}

/-! ### Operations on numbers -/

@[simp] theorem number_add (x y : K) : number x + number y = number (x + y) := rfl

@[simp] theorem number_sub (x y : K) : number x - number y = number (x - y) := rfl

@[simp] theorem number_mul (x y : K) : number x * number y = number (x * y) := rfl

@[simp] theorem number_neg (x : K) : -number x = number (-x) := rfl

@[simp] theorem number_div (x : K) (nonzero : y ≠ 0) : number x / number y = number (x / y) :=
  if_neg nonzero

@[simp] theorem ofNat_eq (n : Nat) : (Scalar.ofNat n : Exact K) = number (n : K) :=
  congrArg number (Int.cast_natCast n)

@[simp] theorem isFinite_number (x : K) : Scalar.isFinite (number x) = true := rfl

/-- Numbers are equal as scalars if they are equal. -/
@[simp] theorem eq_number_iff : Scalar.eq (number x) (number y) = true ↔ x = y :=
  decide_eq_true_iff

/-- A scalar is positive if it is a positive number. -/
theorem isPositive_iff {r : Exact K} : Scalar.isPositive r = true ↔ ∃ x, r = number x ∧ 0 < x := by
  unfold Scalar.isPositive Scalar.zero
  rw [ofNat_eq, Nat.cast_zero]
  cases r with
  | unknown => exact ⟨fun h ↦ (nomatch h), fun ⟨_, h, _⟩ ↦ (nomatch h)⟩
  | number x =>
    change decide (0 < x) = true ↔ _
    rw [decide_eq_true_iff]
    exact ⟨fun pos ↦ ⟨x, rfl, pos⟩, fun ⟨_, h, pos⟩ ↦ number.inj h ▸ pos⟩

@[simp] theorem isPositive_number_iff : Scalar.isPositive (number x) = true ↔ 0 < x := by
  rw [isPositive_iff]
  exact ⟨fun ⟨_, h, pos⟩ ↦ number.inj h ▸ pos, fun pos ↦ ⟨x, rfl, pos⟩⟩

/-- The number zero. -/
theorem zero_eq : (Scalar.zero : Exact K) = number 0 := by
  unfold Scalar.zero
  rw [ofNat_eq, Nat.cast_zero]

/-- One half. -/
theorem half_eq [IsStrictOrderedRing K] : (Scalar.half : Exact K) = number (1 / 2) := by
  unfold Scalar.half Scalar.one Scalar.two
  rw [ofNat_eq, ofNat_eq, Nat.cast_one, Nat.cast_ofNat, number_div 1 two_ne_zero]

/-! ### Lists of numbers -/

/-- Adding up numbers from the left comes to their sum. -/
@[simp] theorem sum_numbers (xs : List K) : Scalar.sum (numbers xs) = number xs.sum := by
  have hfold (total : K) : (numbers xs).foldl (· + ·) (number total) = number (total + xs.sum) := by
    unfold numbers
    rw [List.foldl_map]
    induction xs generalizing total with
    | nil => rw [List.foldl_nil, List.sum_nil, add_zero]
    | cons x xs ih => rw [List.foldl_cons, number_add, ih, List.sum_cons, add_assoc]
  unfold Scalar.sum
  rw [zero_eq, number_neg, hfold, neg_zero, zero_add]

/-- The squares of numbers. -/
theorem map_mul_self_numbers (xs : List K) :
    (numbers xs).map (fun x ↦ x * x) = numbers (xs.map fun x ↦ x * x) := by
  unfold numbers
  rw [List.map_map, List.map_map]
  rfl

/-- The products of numbers, one by one. -/
theorem zipWith_mul_numbers (xs ys : List K) :
    List.zipWith (· * ·) (numbers xs) (numbers ys) = numbers (List.zipWith (· * ·) xs ys) := by
  unfold numbers
  rw [List.zipWith_map, List.map_zipWith]
  rfl

end Exact

open Exact (number)

/-- Steps of a second, and windows of three steps. -/
def Config.brisk : Config (Exact ℚ) where
  xi := number 1
  gamma := number 1
  delta := number 1
  maxPosition := number 1
  orderQty := number 1
  calibrationWindow := 3
  calibrationCadence := 1
  historyCapacity := 3
  historyOverflow := .fail
  volatilityNormalization := number 1
  stepMillis := 1000
  histogramBuckets := 8
  fitBuckets := 4
  statsPath := none

end MarketMaking
