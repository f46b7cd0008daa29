import MarketMaking.Proofs.ArrivalTable
import MarketMaking.Proofs.Binary64.Precision

/-!
# What arrival counts count

The bucket of a depth is found with rounded operations, but it is the one of exact arithmetic. The
counts are sums over all buckets beyond a position, from the deepest bucket that was reached on, and
each is the number of samples whose bucket is beyond the position. Counting the samples one by one
into all buckets below their own comes to the same, and so does any order of the samples.
-/

namespace MarketMaking.Histogram

open Binary64 (value nearestInt saturate wholeNumber)

/-! ### Buckets -/

/-- The bucket of a depth: one less than the nearest number of half ticks, in signed words. -/
def exactBucket (depth : Float) : ℤ := saturate (nearestInt (2 * value depth)) - 1

/-- The bucket that a sample is retained in: that of its depth, if it has a finite one and it is one
of the first `buckets`. -/
def retainedIn? (buckets : Nat) : Option Float → Option Nat
  | none => none
  | some depth =>
      if depth.isFinite = true ∧ 0 ≤ exactBucket depth ∧ exactBucket depth < buckets then
        some (exactBucket depth).toNat
      else none

private theorem toInt_roundEven_div_half {depth : Float} (finite : depth.isFinite = true) :
    Scalar.toInt (Scalar.roundEven (depth / Scalar.half)) =
      saturate (nearestInt (2 * value depth)) := by
  change Binary64.toInt64 (Binary64.round .toEven (depth / Scalar.half)) =
    saturate (wholeNumber .toEven (2 * value depth))
  rw [Binary64.toInt64_round, Binary64.value_div_half finite, Binary64.saturate_wholeNumber_clamp]

private theorem exists_value_eq_or_lt {x : Float} (finite : x.isFinite = true) :
    (∃ n : ℤ, value x = n) ∨ |value x| < 2 ^ 53 := by
  obtain ⟨negative, m, e, hparts, hm, -⟩ := Binary64.exists_ofFloat_eq finite
  have hvalue := Binary64.value_of_ofFloat hparts
  cases e with
  | ofNat e =>
    left
    rw [Binary64.mul_zpow_ofNat] at hvalue
    cases negative with
    | false => exact ⟨(m * pow2 e : ℕ), by rw [hvalue]; rfl⟩
    | true => exact ⟨-(m * pow2 e : ℕ), by rw [hvalue]; push_cast; rfl⟩
  | negSucc e =>
    right
    have hpow : (1 : ℚ) ≤ pow2 (e + 1) := by exact_mod_cast pow2_pos (e + 1)
    have hsize : (m : ℚ) / pow2 (e + 1) < 2 ^ 53 :=
      (div_le_self (Nat.cast_nonneg m) hpow).trans_lt (by exact_mod_cast hm)
    have hnonneg : 0 ≤ (m : ℚ) / pow2 (e + 1) := by positivity
    rw [Binary64.mul_zpow_negSucc] at hvalue
    rw [hvalue]
    cases negative with
    | false => rwa [if_neg Bool.false_ne_true, abs_of_nonneg hnonneg]
    | true => rwa [if_pos rfl, abs_neg, abs_of_nonneg hnonneg]

private theorem nearestInt_le_iff {depth : Float} (finite : depth.isFinite = true) :
    nearestInt (2 * value depth) ≤ -2 ^ 63 ↔ value depth ≤ -2 ^ 62 := by
  have hwhole (n : ℤ) : nearestInt n = n := Binary64.wholeNumber_intCast .toEven n
  constructor
  · intro below
    rcases exists_value_eq_or_lt finite with ⟨n, hn⟩ | hsmall
    · have hdouble : 2 * value depth = ((2 * n : ℤ) : ℚ) := by rw [hn]; push_cast; rfl
      have hle : n ≤ -2 ^ 62 := by
        rw [hdouble, hwhole] at below
        omega
      rw [hn]
      exact_mod_cast hle
    · have hlow : ((-2 ^ 54 : ℤ) : ℚ) ≤ 2 * value depth := by
        have hneg := neg_lt_of_abs_lt hsmall
        push_cast
        linarith
      have hnear := Binary64.nearestInt_mono hlow
      rw [hwhole] at hnear
      omega
  · intro below
    have hhigh : 2 * value depth ≤ ((-2 ^ 63 : ℤ) : ℚ) := by
      push_cast
      linarith
    exact (Binary64.nearestInt_mono hhigh).trans_eq (hwhole _)

/-- Only a finite depth of `2 ^ 62` ticks or more on the near side has no bucket number. -/
theorem bucketNumber?_eq_none_iff {depth : Float} (finite : depth.isFinite = true) :
    bucketNumber? depth = none ↔ value depth ≤ -2 ^ 62 := by
  have h63 : (pow2 63 : ℤ) = 2 ^ 63 := rfl
  have hmin : Binary64.minInt64 = -2 ^ 63 := rfl
  have hmax : Binary64.maxInt64 = 2 ^ 63 - 1 := rfl
  rw [bucketNumber?_eq, toInt_roundEven_div_half finite, ← nearestInt_le_iff finite, saturate, h63,
    hmin, hmax]
  split <;> simp <;> omega

/-- Every finite depth has a bucket number exactly if none is so far on the near side. -/
theorem allNumbered_iff {depths : List (Option Float)} :
    AllNumbered depths ↔
      ∀ depth, some depth ∈ depths → depth.isFinite = true → -2 ^ 62 < value depth := by
  refine forall_congr' fun depth ↦ imp_congr_right fun mem ↦ imp_congr_right fun finite ↦ ?_
  exact (not_congr (bucketNumber?_eq_none_iff finite)).trans not_le

private theorem bind_bucketOf? (buckets : Nat) (sample : Option Float) :
    sample.bind (bucketOf? buckets) = retainedIn? buckets sample := by
  cases sample with
  | none => rfl
  | some depth =>
    have hscalar : Scalar.isFinite depth = depth.isFinite := rfl
    unfold retainedIn? exactBucket
    rw [Option.bind_some, bucketOf?, hscalar]
    by_cases hfinite : depth.isFinite = true
    · rw [toInt_roundEven_div_half hfinite, if_pos hfinite]
      simp only [hfinite, true_and]
    · rw [if_neg hfinite]
      exact (if_neg fun h ↦ hfinite h.1).symm

/-- The buckets of all samples that are retained. -/
theorem retained_eq (buckets : Nat) (depths : List (Option Float)) :
    retained buckets depths = depths.filterMap (retainedIn? buckets) := by
  unfold retained
  rw [funext (bind_bucketOf? buckets)]

/-! ### Sums over buckets -/

private theorem countP_add_count (arrivals : List Nat) (i n : Nat) :
    (arrivals.countP fun bucket ↦ i < bucket ∧ bucket ≤ i + n) + arrivals.count (i + 1 + n) =
      arrivals.countP fun bucket ↦ i < bucket ∧ bucket ≤ i + (n + 1) := by
  induction arrivals with
  | nil => rfl
  | cons bucket arrivals ih =>
    simp only [List.countP_cons, List.count_cons, beq_iff_eq, decide_eq_true_eq]
    split <;> split <;> split <;> omega

private theorem sum_count_range' (arrivals : List Nat) (i n : Nat) :
    ((List.range' (i + 1) n).map arrivals.count).sum =
      arrivals.countP fun bucket ↦ i < bucket ∧ bucket ≤ i + n := by
  induction n with
  | zero =>
    symm
    rw [List.range'_zero, List.map_nil, List.sum_nil, List.countP_eq_zero]
    intro bucket _
    simp only [decide_eq_true_eq]
    omega
  | succ n ih =>
    rw [List.range'_1_concat, List.map_append, List.sum_append, ih, List.map_singleton,
      List.sum_singleton, countP_add_count]

private theorem toList_hits (arrivals : List Nat) (deepest : Nat) :
    (hits arrivals deepest).toList = (List.range (deepest + 1)).map arrivals.count := by
  have hhits : hits arrivals deepest = countHits (Array.replicate (deepest + 1) 0) arrivals := rfl
  apply List.ext_getElem?
  intro i
  rw [hhits, Array.getElem?_toList, getElem?_countHits, Array.getElem?_replicate, List.getElem?_map]
  by_cases hlt : i < deepest + 1
  · rw [if_pos hlt, List.getElem?_range hlt, Option.map_some, Option.map_some, Nat.zero_add]
  · rw [if_neg hlt, List.getElem?_eq_none (by simpa using hlt)]
    rfl

section Counts

variable {R : Type} [Scalar R] {buckets : Nat} {depths depths' : List (Option R)}

/-- Entry `i` of the cumulative counts counts the arrivals beyond bucket `i`. -/
theorem cumulative_eq_map (buckets : Nat) (depths : List (Option R)) :
    cumulative buckets depths =
      (List.range ((retained buckets depths).foldl max 0)).map fun i ↦
        (retained buckets depths).countP (i < ·) := by
  unfold cumulative
  simp only
  generalize retained buckets depths = arrivals
  obtain ⟨-, hbound, -⟩ := foldl_max arrivals 0
  generalize arrivals.foldl max 0 = deepest at hbound
  have hlength : (suffixSums ((hits arrivals deepest).toList.drop 1)).length = deepest := by
    rw [length_suffixSums, toList_hits]
    simp
  apply List.ext_getElem
  · rw [hlength, List.length_map, List.length_range]
  · intro i hi _
    have hlt : i < deepest := hlength ▸ hi
    have hdrop : ((hits arrivals deepest).toList.drop 1).drop i =
        (List.range' (i + 1) (deepest - i)).map arrivals.count := by
      rw [List.drop_drop, toList_hits, ← List.map_drop, List.range_eq_range', List.drop_range',
        Nat.zero_add, Nat.mul_one, Nat.add_comm 1 i, Nat.add_sub_add_right]
    have hsum := getD_suffixSums ((hits arrivals deepest).toList.drop 1) i
    rw [List.getD_eq_getElem?_getD, List.getElem?_eq_getElem hi, Option.getD_some, hdrop,
      ← List.sum_eq_foldr, sum_count_range'] at hsum
    rw [hsum, List.getElem_map, List.getElem_range]
    apply List.countP_congr
    intro bucket mem
    have hle := hbound bucket mem
    simp only [decide_eq_true_eq]
    omega

example : cumulative 8 [some (1.5 : Float), none, some 0.6, some 2] = [2, 2, 1] := by
  decide +kernel

/-- There are as many counts as the deepest bucket says. -/
@[simp] theorem length_cumulative (buckets : Nat) (depths : List (Option R)) :
    (cumulative buckets depths).length = (retained buckets depths).foldl max 0 := by
  rw [cumulative_eq_map, List.length_map, List.length_range]

/-- No count is larger than one before it. -/
theorem pairwise_cumulative (buckets : Nat) (depths : List (Option R)) :
    (cumulative buckets depths).Pairwise (· ≥ ·) := by
  rw [cumulative_eq_map, List.pairwise_map]
  apply List.pairwise_lt_range.imp
  intro i j lt
  apply List.countP_mono_left
  intro bucket _ hbeyond
  simp only [decide_eq_true_eq] at hbeyond ⊢
  omega

/-- The deepest arrival is counted in every entry. -/
theorem one_le_of_mem_cumulative {count : Nat} (mem : count ∈ cumulative buckets depths) :
    1 ≤ count := by
  rw [cumulative_eq_map] at mem
  obtain ⟨i, hi, rfl⟩ := List.mem_map.mp mem
  have hlt := List.mem_range.mp hi
  obtain ⟨-, -, hzero | hmem⟩ := foldl_max (retained buckets depths) 0
  · omega
  · exact List.countP_pos_iff.mpr ⟨_, hmem, decide_eq_true hlt⟩

private theorem cumulative_perm (perm : depths'.Perm depths) :
    cumulative buckets depths' = cumulative buckets depths := by
  have hretained : (retained buckets depths').Perm (retained buckets depths) := perm.filterMap _
  rw [cumulative_eq_map, cumulative_eq_map, hretained.foldl_eq]
  apply List.map_congr_left
  intro i _
  exact hretained.countP_eq _

end Counts

/-! ### Counting one by one -/

/-- The counts and the deepest bucket after one more sample, which is counted in every bucket below
its own. -/
def countBelow (buckets : Nat) (counted : List Nat × Nat) (sample : Option Float) :
    List Nat × Nat :=
  match retainedIn? buckets sample with
  | none => counted
  | some bucket =>
      (counted.1.mapIdx fun i count ↦ if i < bucket then count + 1 else count,
        max counted.2 bucket)

/-- The counts up to the deepest bucket, counting one sample after another. -/
def countedEach (buckets : Nat) (depths : List (Option Float)) : List Nat :=
  let (counts, deepest) := depths.foldl (countBelow buckets) (List.replicate buckets 0, 0)
  counts.take deepest

private theorem getElem?_countBelow (buckets : Nat) (counted : List Nat × Nat)
    (sample : Option Float) (i : Nat) : (countBelow buckets counted sample).1[i]? =
      counted.1[i]?.map (· + (retainedIn? buckets sample).toList.countP (i < ·)) := by
  unfold countBelow
  cases retainedIn? buckets sample with
  | none => simp
  | some bucket =>
    by_cases hlt : i < bucket
    · simp [List.getElem?_mapIdx, hlt]
    · simp [List.getElem?_mapIdx, hlt]

private theorem snd_countBelow (buckets : Nat) (counted : List Nat × Nat) (sample : Option Float) :
    (countBelow buckets counted sample).2 =
      (retainedIn? buckets sample).toList.foldl max counted.2 := by
  unfold countBelow
  cases retainedIn? buckets sample <;> rfl

/-- Counting samples one by one adds to each entry the number of samples whose bucket is beyond it,
and finds the deepest bucket. -/
theorem foldl_countBelow (buckets : Nat) (depths : List (Option Float)) (counted : List Nat × Nat) :
    (∀ i : Nat, (depths.foldl (countBelow buckets) counted).1[i]? = counted.1[i]?.map
      (· + (retained buckets depths).countP (i < ·))) ∧
      (depths.foldl (countBelow buckets) counted).2 =
        (retained buckets depths).foldl max counted.2 := by
  induction depths generalizing counted with
  | nil => exact ⟨fun i ↦ by simp [retained], rfl⟩
  | cons sample depths ih =>
    obtain ⟨hcounts, hdeepest⟩ := ih (countBelow buckets counted sample)
    rw [List.foldl_cons, retained_cons, bind_bucketOf?]
    constructor
    · intro i
      rw [hcounts, getElem?_countBelow, Option.map_map, List.countP_append]
      congr 1
      funext count
      exact Nat.add_assoc _ _ _
    · rw [hdeepest, snd_countBelow, List.foldl_append]

private theorem countedEach_eq (buckets : Nat) (depths : List (Option Float)) :
    countedEach buckets depths = cumulative buckets depths := by
  obtain ⟨hcounts, hdeepest⟩ := foldl_countBelow buckets depths (List.replicate buckets 0, 0)
  have hinside : ∀ i < (retained buckets depths).foldl max 0, i < buckets := by
    intro i hi
    obtain ⟨-, -, hzero | hmem⟩ := foldl_max (retained buckets depths) 0
    · omega
    · exact hi.trans (lt_of_mem_retained hmem)
  rw [cumulative_eq_map]
  unfold countedEach
  simp only
  rw [hdeepest]
  apply List.ext_getElem?
  intro i
  rw [List.getElem?_take, hcounts, List.getElem?_replicate, List.getElem?_map]
  by_cases hlt : i < (retained buckets depths).foldl max 0
  · rw [if_pos hlt, if_pos (hinside i hlt), List.getElem?_range hlt, Option.map_some,
      Option.map_some, Nat.zero_add]
  · rw [if_neg hlt, List.getElem?_eq_none (by simpa using hlt)]
    rfl

/-! ### The counts of samples -/

/-- Counts of all samples of a list, among them those without a finite depth and those in no bucket.
There are as many as the deepest bucket of a sample says, or none if no sample is retained. Entry
`i` is the number of samples whose bucket is beyond `i`. Counting one by one and cutting the counts
off at the deepest bucket comes to the same. No count is larger than one before it, none is zero,
and the order of the samples does not matter. -/
theorem cumulative_counts (buckets : Nat) (depths : List (Option Float)) :
    let counts := cumulative buckets depths
    (∀ sample ∈ depths, ∀ bucket, retainedIn? buckets sample = some bucket →
      bucket ≤ counts.length) ∧
      (counts.length = 0 ∨
        ∃ sample ∈ depths, retainedIn? buckets sample = some counts.length) ∧
      (∀ i, (lt : i < counts.length) →
        counts[i] = depths.countP fun sample ↦ (retainedIn? buckets sample).any (i < ·)) ∧
      counts = countedEach buckets depths ∧
      counts.Pairwise (· ≥ ·) ∧
      (∀ count ∈ counts, 1 ≤ count) ∧
      ∀ reordered : List (Option Float), reordered.Perm depths →
        cumulative buckets reordered = counts := by
  intro counts
  obtain ⟨-, hbound, hdeepest⟩ := foldl_max (retained buckets depths) 0
  rw [← length_cumulative, retained_eq] at hbound hdeepest
  refine ⟨?_, ?_, ?_, (countedEach_eq buckets depths).symm, pairwise_cumulative buckets depths,
    fun _ mem ↦ one_le_of_mem_cumulative mem, fun _ perm ↦ cumulative_perm perm⟩
  · intro sample mem bucket hbucket
    exact hbound bucket (List.mem_filterMap.mpr ⟨sample, mem, hbucket⟩)
  · exact hdeepest.imp_right List.mem_filterMap.mp
  · intro i lt
    have hentry : counts[i] = (retained buckets depths).countP (i < ·) := by
      simp only [counts, cumulative_eq_map, List.getElem_map, List.getElem_range]
    rw [hentry, retained_eq, List.countP_filterMap]
    apply List.countP_congr
    intro sample _
    cases retainedIn? buckets sample <;> rfl

end MarketMaking.Histogram
