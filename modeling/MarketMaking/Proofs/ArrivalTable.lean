import Mathlib.Algebra.GroupWithZero.Nat
import MarketMaking.Binary64.Scalar
import MarketMaking.Estimation.ArrivalTable

/-!
# Arrivals in a table and in the histogram

Counting arrivals in a table of words comes to the counts of the histogram: every position that is
read or written on the way lies in its table, and no sum is larger than the number of depths. There
is a result exactly if every finite depth has a bucket number, which all but very low ones have.
-/

namespace MarketMaking.Histogram

open Machine

/-! ### Buckets in words -/

/-- The integer part of a double is in the range of signed words. -/
theorem toInt_bounds (x : Float) :
    -pow2 63 ≤ (Scalar.toInt x : Int) ∧ Scalar.toInt x < pow2 63 := by
  have htoInt : Scalar.toInt x = Binary64.toInt64 x := rfl
  have h63 : pow2 63 = 9223372036854775808 := rfl
  rw [htoInt, Binary64.toInt64, Binary64.minInt64, Binary64.maxInt64, h63]
  split
  · omega
  · split <;> omega
  · simp only
    omega

/-- A depth has a bucket number unless its half ticks are the least signed word. -/
theorem bucketNumber?_eq (depth : Float) :
    bucketNumber? depth =
      if Scalar.toInt (Scalar.roundEven (depth / Scalar.half)) = -(pow2 63 : Int) then none
      else some (Scalar.toInt (Scalar.roundEven (depth / Scalar.half)) - 1) := by
  obtain ⟨hge, hlt⟩ := toInt_bounds (Scalar.roundEven (depth / Scalar.half))
  rw [bucketNumber?]
  generalize Scalar.toInt (Scalar.roundEven (depth / Scalar.half)) = n at hge hlt ⊢
  by_cases least : n = -(pow2 63 : Int)
  · rw [if_pos least, least, signedSub?_least]
  · rw [if_neg least, signedSub?_eq_some (by omega) (by omega)]

/-- A bucket is in the table exactly when its number in words is. -/
theorem bucketOf?_eq {buckets : Nat} (short : buckets < pow2 63) {depth : Float} {number : Int}
    (finite : Scalar.isFinite depth = true) (numbered : bucketNumber? depth = some number) :
    bucketOf? buckets depth =
      if number < 0 ∨ signed buckets ≤ number then none else some number.toNat := by
  have hpos : (0 : Int) < pow2 63 := by decide
  have hbuckets : signed buckets = buckets := signed_eq_self (by omega) (by omega)
  rw [bucketNumber?_eq] at numbered
  split at numbered
  · cases numbered
  · obtain rfl := Option.some.inj numbered
    rw [bucketOf?, if_pos finite, hbuckets]
    simp only
    by_cases inside :
        0 ≤ (Scalar.toInt (Scalar.roundEven (depth / Scalar.half)) - 1 : Int) ∧
          (Scalar.toInt (Scalar.roundEven (depth / Scalar.half)) - 1 : Int) < buckets
    · rw [if_pos inside, if_neg (by omega)]
    · rw [if_neg inside, if_pos (by omega)]

variable {buckets : Nat} {depths : List (Option Float)}

private theorem lt_of_bucketOf? {depth : Float} {bucket : Nat}
    (found : bucketOf? buckets depth = some bucket) : bucket < buckets := by
  unfold bucketOf? at found
  split at found
  · simp only at found
    split at found
    · next inside =>
      obtain rfl := Option.some.inj found
      omega
    · cases found
  · cases found

/-- Arrivals are counted in buckets of the table. -/
theorem lt_of_mem_retained {bucket : Nat} (mem : bucket ∈ retained buckets depths) :
    bucket < buckets := by
  obtain ⟨depth, -, hbucket⟩ := List.mem_filterMap.mp mem
  obtain ⟨d, -, hd⟩ := Option.bind_eq_some_iff.mp hbucket
  exact lt_of_bucketOf? hd

/-- The first depth may have a bucket, before those of the others. -/
theorem retained_cons {R : Type} [Scalar R] (buckets : Nat) (depth : Option R)
    (depths : List (Option R)) : retained buckets (depth :: depths) =
      (depth.bind (bucketOf? buckets)).toList ++ retained buckets depths := by
  rw [retained, List.filterMap_cons]
  cases depth.bind (bucketOf? buckets) <;> rfl

/-! ### The table of hits -/

/-- A table after some more arrivals in its buckets. -/
def countHits (table : Array Nat) (arrivals : List Nat) : Array Nat :=
  arrivals.foldl (fun counts bucket ↦ counts.modify bucket (· + 1)) table

/-- Counting leaves a table as long as it is. -/
@[simp] theorem size_countHits (table : Array Nat) (arrivals : List Nat) :
    (countHits table arrivals).size = table.size := by
  induction arrivals generalizing table with
  | nil => rfl
  | cons bucket arrivals ih => rw [countHits, List.foldl_cons, ← countHits, ih, Array.size_modify]

/-- An entry of a table grows by the number of arrivals in its bucket. -/
theorem getElem?_countHits (table : Array Nat) (arrivals : List Nat) (i : Nat) :
    (countHits table arrivals)[i]? = table[i]?.map (· + arrivals.count i) := by
  induction arrivals generalizing table with
  | nil => simp [countHits]
  | cons bucket arrivals ih =>
    rw [countHits, List.foldl_cons, ← countHits, ih, Array.getElem?_modify, List.count_cons]
    by_cases same : bucket = i
    · simp [same, Function.comp_def, Nat.add_comm, Nat.add_left_comm]
    · simp [same]

/-- Has every finite depth a bucket number? -/
def AllNumbered (depths : List (Option Float)) : Prop :=
  ∀ depth, some depth ∈ depths → Scalar.isFinite depth = true → bucketNumber? depth ≠ none

instance (depths : List (Option Float)) : Decidable (AllNumbered depths) :=
  decidable_of_iff (∀ sample ∈ depths, ∀ depth ∈ sample, Scalar.isFinite depth = true →
      (bucketNumber? depth).isSome = true) <| by
    simp only [AllNumbered, ne_eq, ← Option.isSome_iff_ne_none]
    exact ⟨fun h depth mem ↦ h _ mem depth rfl, fun h _ mem depth eq ↦ h depth (eq ▸ mem)⟩

/-- An arrival is counted at its bucket, if it has one. -/
theorem tally?_eq (short : buckets < pow2 63) {table : Array Nat} (size : table.size = buckets)
    (room : ∀ i n : Nat, table[i]? = some n → n + 1 < pow2 64) (deepest : Nat)
    {depth : Option Float} (numbered : AllNumbered [depth]) :
    tally? buckets (table, deepest) depth =
      some (countHits table (depth.bind (bucketOf? buckets)).toList,
        (depth.bind (bucketOf? buckets)).toList.foldl max deepest) := by
  cases depth with
  | none => rfl
  | some depth =>
    rw [tally?, Option.bind_some]
    cases finite : Scalar.isFinite depth with
    | false =>
      have hnone : bucketOf? buckets depth = none := if_neg (by simp [finite])
      rw [hnone]
      rfl
    | true =>
      obtain ⟨number, hnumber⟩ :=
        Option.ne_none_iff_exists'.mp (numbered depth List.mem_cons_self finite)
      have hbucket := bucketOf?_eq short finite hnumber
      rw [if_pos rfl, hnumber, Option.bind_eq_bind, Option.bind_some]
      by_cases outside : number < 0 ∨ signed buckets ≤ number
      · rw [hbucket, if_pos outside, if_pos outside]
        rfl
      · rw [if_neg outside] at hbucket
        have hlt : number.toNat < table.size := by
          rw [size]
          exact lt_of_bucketOf? hbucket
        have hentry : table[number.toNat]? = some table[number.toNat] :=
          Array.getElem?_eq_getElem hlt
        have hcounted : update? table number.toNat (add? · 1) =
            some (table.modify number.toNat (· + 1)) :=
          update?_eq_some hentry (add?_eq_some (room _ _ hentry))
        rw [hbucket, if_neg outside, hcounted]
        rfl

private theorem tally?_eq_none {depth : Float} (finite : Scalar.isFinite depth = true)
    (unnumbered : bucketNumber? depth = none) (buckets : Nat) (table : Array Nat × Nat) :
    tally? buckets table (some depth) = none := by
  rw [tally?, if_pos finite, unnumbered]
  rfl

private theorem foldlM_tally? (short : buckets < pow2 63) {depths : List (Option Float)}
    (numbered : AllNumbered depths) {table : Array Nat} (size : table.size = buckets)
    (room : ∀ i n : Nat, table[i]? = some n → n + depths.length < pow2 64) (deepest : Nat) :
    depths.foldlM (tally? buckets) (table, deepest) =
      some (countHits table (retained buckets depths),
        (retained buckets depths).foldl max deepest) := by
  induction depths generalizing table deepest with
  | nil => rfl
  | cons depth depths ih =>
    have hfirst : AllNumbered [depth] := by
      intro d mem
      obtain rfl := List.mem_singleton.mp mem
      exact numbered d List.mem_cons_self
    have hrest : AllNumbered depths := fun d mem ↦ numbered d (List.mem_cons_of_mem _ mem)
    have hone (i n : Nat) (entry : table[i]? = some n) : n + 1 < pow2 64 := by
      have hroom := room i n entry
      rw [List.length_cons] at hroom
      omega
    -- one more arrival takes at most one place of those that the rest leaves
    have hroom : ∀ i n : Nat,
        (countHits table (depth.bind (bucketOf? buckets)).toList)[i]? = some n →
          n + depths.length < pow2 64 := by
      intro i n entry
      rw [getElem?_countHits] at entry
      obtain ⟨m, hm, rfl⟩ := Option.map_eq_some_iff.mp entry
      have hbefore := room i m hm
      have hcount := List.count_le_length (a := i) (l := (depth.bind (bucketOf? buckets)).toList)
      have hlength := Option.length_toList_le (o := depth.bind (bucketOf? buckets))
      rw [List.length_cons] at hbefore
      omega
    rw [List.foldlM_cons, tally?_eq short size hone deepest hfirst, Option.bind_eq_bind,
      Option.bind_some, ih hrest ((size_countHits _ _).trans size) hroom, retained_cons,
      List.foldl_append, countHits, countHits, countHits, List.foldl_append]

private theorem foldlM_tally?_eq_none {depths : List (Option Float)}
    (unnumbered : ¬ AllNumbered depths)
    (buckets : Nat) (table : Array Nat × Nat) : depths.foldlM (tally? buckets) table = none := by
  induction depths generalizing table with
  | nil => exact absurd (fun _ mem ↦ nomatch mem) unnumbered
  | cons depth depths ih =>
    rw [List.foldlM_cons]
    by_cases hrest : AllNumbered depths
    · -- then it is the first depth that has none
      obtain ⟨d, rfl, hfinite, hnone⟩ : ∃ d, depth = some d ∧ Scalar.isFinite d = true ∧
          bucketNumber? d = none := by
        refine Classical.byContradiction fun hfirst ↦ unnumbered fun d mem finite none ↦ ?_
        rcases List.mem_cons.mp mem with first | rest
        · exact hfirst ⟨d, first.symm, finite, none⟩
        · exact hrest d rest finite none
      rw [tally?_eq_none hfinite hnone]
      rfl
    · cases tally? buckets table depth with
      | none => rfl
      | some table => exact ih hrest table

/-- The largest of some numbers and a first one is not below any of them, and is one of them. -/
theorem foldl_max (arrivals : List Nat) (start : Nat) :
    start ≤ arrivals.foldl max start ∧ (∀ bucket ∈ arrivals, bucket ≤ arrivals.foldl max start) ∧
      (arrivals.foldl max start = start ∨ arrivals.foldl max start ∈ arrivals) := by
  induction arrivals generalizing start with
  | nil => exact ⟨Nat.le_refl _, List.forall_mem_nil _, .inl rfl⟩
  | cons bucket arrivals ih =>
    obtain ⟨hstart, hall, hone⟩ := ih (max start bucket)
    rw [List.foldl_cons]
    refine ⟨Nat.le_trans (Nat.le_max_left _ _) hstart, ?_, ?_⟩
    · exact List.forall_mem_cons.mpr ⟨Nat.le_trans (Nat.le_max_right _ _) hstart, hall⟩
    · rcases hone with heq | hmem
      · rcases Nat.le_total bucket start with hle | hle
        · exact .inl (heq.trans (Nat.max_eq_left hle))
        · rw [heq, Nat.max_eq_right hle]
          exact .inr List.mem_cons_self
      · exact .inr (List.mem_cons_of_mem _ hmem)

private theorem foldl_max_lt {arrivals : List Nat} (inside : ∀ bucket ∈ arrivals, bucket < buckets)
    {deepest : Nat} (start : deepest < buckets) : arrivals.foldl max deepest < buckets := by
  obtain ⟨-, -, hstart | hmem⟩ := foldl_max arrivals deepest
  · rwa [hstart]
  · exact inside _ hmem

/-! ### The cumulative counts -/

private theorem sum_modify_le (counts : List Nat) (i : Nat) :
    (counts.modify i (· + 1)).sum ≤ counts.sum + 1 := by
  induction counts generalizing i with
  | nil => simp
  | cons count counts ih =>
    cases i with
    | zero => simp; omega
    | succ i =>
      have hle := ih i
      simp only [List.modify_succ_cons, List.sum_cons]
      omega

private theorem sum_countHits_le (table : Array Nat) (arrivals : List Nat) :
    (countHits table arrivals).toList.sum ≤ table.toList.sum + arrivals.length := by
  induction arrivals generalizing table with
  | nil => exact Nat.le_refl _
  | cons bucket arrivals ih =>
    have hle := ih (table.modify bucket (· + 1))
    have hone := sum_modify_le table.toList bucket
    rw [Array.toList_modify] at hle
    rw [countHits, List.foldl_cons, ← countHits, List.length_cons]
    omega

private theorem fillBefore?_eq {hits : Array Nat} {counts : List Nat} (fits : counts.sum < pow2 64)
    (agree : ∀ i, (lt : i < counts.length) → hits[i + 1]? = some counts[i]) {i running : Nat}
    {out : Array Nat} (le : i ≤ counts.length) (size : out.size = counts.length)
    (filled : out.toList.drop i = suffixSums (counts.drop i))
    (sum : running = (counts.drop i).sum) :
    fillBefore? hits i running out = some (suffixSums counts).toArray := by
  induction i generalizing running out with
  | zero =>
    rw [List.drop_zero, List.drop_zero] at filled
    rw [fillBefore?, ← filled]
  | succ i ih =>
    have hdrop : counts.drop i = counts[i] :: counts.drop (i + 1) := List.drop_eq_getElem_cons le
    have hsum : running + counts[i] = (counts.drop i).sum := by
      rw [hdrop, List.sum_cons, ← sum, Nat.add_comm]
    have hsums : suffixSums (counts.drop i) =
        (running + counts[i]) :: suffixSums (counts.drop (i + 1)) := by
      have hhead : (suffixSums (counts.drop (i + 1))).headD 0 = running :=
        (headD_suffixSums _).trans sum.symm
      rw [hdrop, suffixSums, List.foldr_cons, ← suffixSums, hhead, Nat.add_comm]
    have hfits : running + counts[i] < pow2 64 := by
      have hsplit := congrArg List.sum (List.take_append_drop i counts)
      rw [List.sum_append] at hsplit
      omega
    have hlt : i < out.size := by omega
    have hwritten : update? out i (fun _ ↦ some (running + counts[i])) =
        some (out.modify i fun _ ↦ running + counts[i]) :=
      update?_eq_some (Array.getElem?_eq_getElem hlt) rfl
    rw [fillBefore?, agree i le, Option.bind_eq_bind, Option.bind_some, add?_eq_some hfits,
      Option.bind_eq_bind, Option.bind_some, hwritten, Option.bind_some]
    apply ih (Nat.le_of_succ_le le)
    · rw [Array.size_modify, size]
    · have hlength : i < out.toList.length := by rwa [Array.length_toList]
      rw [Array.toList_modify, List.modify_eq_take_cons_drop hlength, hsums, ← filled]
      exact List.drop_left' (List.length_take_of_le (Nat.le_of_lt hlength))
    · exact hsum

/-- The counts through the table are those of the histogram when all depths have bucket numbers. -/
theorem measure?_eq (positive : 0 < buckets) (short : buckets < pow2 63)
    (fits : depths.length < pow2 64) (numbered : AllNumbered depths) :
    measure? buckets depths = some (cumulative buckets depths) := by
  have hdeepest : (retained buckets depths).foldl max 0 < buckets :=
    foldl_max_lt (fun _ mem ↦ lt_of_mem_retained mem) positive
  have hroom (i n : Nat) (entry : (Array.replicate buckets 0)[i]? = some n) :
      n + depths.length < pow2 64 := by
    rw [Array.getElem?_replicate] at entry
    split at entry
    · rw [← Option.some.inj entry, Nat.zero_add]
      exact fits
    · cases entry
  have harrivals : (retained buckets depths).length ≤ depths.length := List.length_filterMap_le _ _
  rw [measure?, foldlM_tally? short numbered Array.size_replicate hroom, Option.bind_eq_bind,
    Option.bind_some, cumulative]
  simp only
  generalize (retained buckets depths).foldl max 0 = deepest at hdeepest ⊢
  generalize retained buckets depths = arrivals at harrivals ⊢
  -- a table that ends with the deepest bucket has the same entries
  have hhits : hits arrivals deepest = countHits (Array.replicate (deepest + 1) 0) arrivals := rfl
  have hlength : ((hits arrivals deepest).toList.drop 1).length = deepest := by
    simp [hhits]
  have hsum : ((hits arrivals deepest).toList.drop 1).sum < pow2 64 := by
    have hcounted := sum_countHits_le (Array.replicate (deepest + 1) 0) arrivals
    have hsplit := congrArg List.sum (List.take_append_drop 1 (hits arrivals deepest).toList)
    rw [← hhits, Array.toList_replicate, List.sum_replicate_nat, Nat.mul_zero] at hcounted
    rw [List.sum_append] at hsplit
    omega
  have hfilled : fillBefore? (countHits (Array.replicate buckets 0) arrivals) deepest 0
      (Array.replicate deepest 0) =
        some (suffixSums ((hits arrivals deepest).toList.drop 1)).toArray := by
    apply fillBefore?_eq hsum
    · intro i lt
      have hlt : i + 1 < deepest + 1 := by omega
      rw [getElem?_countHits, ← List.getElem?_eq_getElem, List.getElem?_drop,
        Array.getElem?_toList, hhits, getElem?_countHits, Nat.add_comm 1 i,
        Array.getElem?_replicate, Array.getElem?_replicate, if_pos (by omega), if_pos hlt]
    · exact Nat.le_of_eq hlength.symm
    · rw [Array.size_replicate, hlength]
    · rw [List.drop_eq_nil_of_le (Nat.le_of_eq hlength), List.drop_eq_nil_of_le (by simp)]
      rfl
    · rw [List.drop_eq_nil_of_le (Nat.le_of_eq hlength)]
      rfl
  rw [hfilled]
  rfl

/-- Without a number for the bucket of every finite depth there are no counts through the table. -/
theorem measure?_eq_none (unnumbered : ¬ AllNumbered depths) (buckets : Nat) :
    measure? buckets depths = none := by
  rw [measure?, foldlM_tally?_eq_none unnumbered]
  rfl

end MarketMaking.Histogram
