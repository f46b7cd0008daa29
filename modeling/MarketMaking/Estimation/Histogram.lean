import MarketMaking.Scalar

/-!
# Arrival counts by depth

Depths are sorted into buckets of half a tick, bucket 0 being the closest possible quote to the
middle. A quote resting in a bucket is reached by every arrival of a deeper bucket, so counts are
cumulative from the far end.
-/

namespace MarketMaking.Histogram

variable {R : Type} [Scalar R]

open Scalar in
/-- The bucket of a depth, if it is one of the first `buckets`. -/
def bucketOf? (buckets : Nat) (depth : R) : Option Nat :=
  if isFinite depth then
    let bucket := toInt (roundEven (depth / half)) - 1
    if 0 ≤ bucket ∧ bucket < buckets then some bucket.toNat else none
  else none

/-- The buckets of all depths that have one. -/
def retained (buckets : Nat) (depths : List (Option R)) : List Nat :=
  depths.filterMap fun depth => depth.bind (bucketOf? buckets)

/-- The number of arrivals in each bucket up to the deepest one. -/
def hits (arrivals : List Nat) (deepest : Nat) : Array Nat :=
  arrivals.foldl (fun counts bucket => counts.modify bucket (· + 1))
    (Array.replicate (deepest + 1) 0)

/-- The sums of all entries from each position on. -/
def suffixSums (counts : List Nat) : List Nat :=
  counts.foldr (fun count sums => (count + sums.headD 0) :: sums) []

/-- There are as many sums as entries. -/
theorem length_suffixSums (counts : List Nat) : (suffixSums counts).length = counts.length := by
  induction counts with
  | nil => rfl
  | cons count counts ih => simpa [suffixSums] using ih

/-- The first sum is that of all entries. -/
theorem headD_suffixSums (counts : List Nat) :
    (suffixSums counts).headD 0 = counts.foldr (· + ·) 0 := by
  induction counts with
  | nil => rfl
  | cons count counts ih => simpa [suffixSums] using ih

/-- The sum at a position is that of the entries from there on. -/
theorem getD_suffixSums (counts : List Nat) (i : Nat) :
    (suffixSums counts).getD i 0 = (counts.drop i).foldr (· + ·) 0 := by
  induction counts generalizing i with
  | nil => simp [suffixSums]
  | cons count counts ih =>
    cases i with
    | zero => simpa [suffixSums] using headD_suffixSums counts
    | succ i => simpa [suffixSums] using ih i

/-- Entry `i` counts the arrivals in buckets beyond `i`, for each `i` before the deepest bucket
that was reached. -/
def cumulative (buckets : Nat) (depths : List (Option R)) : List Nat :=
  let arrivals := retained buckets depths
  let deepest := arrivals.foldl max 0
  suffixSums ((hits arrivals deepest).toList.drop 1)

end MarketMaking.Histogram
