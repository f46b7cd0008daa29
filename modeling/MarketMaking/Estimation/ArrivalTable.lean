import MarketMaking.Estimation.Calibrator
import MarketMaking.Machine

/-!
# Counting arrivals in a table

Arrivals are counted in a table with an entry for every bucket, from which the cumulative counts are
filled in backwards from the deepest bucket that was reached. Numbers and positions are words here,
and there is no result where one of them leaves its domain.
-/

namespace MarketMaking

open Machine

variable {R : Type} [Scalar R]

namespace Histogram

/-- The number of the bucket of a finite depth. Half ticks beyond the signed words are as many as
the last of these, but the least of them has no number below it. -/
def bucketNumber? (depth : R) : Option Int :=
  signedSub? (Scalar.toInt (Scalar.roundEven (depth / Scalar.half))) 1

/-- Count an arrival, if it has a depth with a bucket in the table. The second part is the deepest
bucket so far. -/
def tally? (buckets : Nat) (table : Array Nat × Nat) (depth : Option R) :
    Option (Array Nat × Nat) :=
  match depth with
  | none => some table
  | some depth =>
      if Scalar.isFinite depth then do
        let bucket ← bucketNumber? depth
        if bucket < 0 ∨ signed buckets ≤ bucket then return table
        else
          let hits ← update? table.1 bucket.toNat (add? · 1)
          return (hits, max table.2 bucket.toNat)
      else some table

/-- Fill in the entries before `i` from the last one on: each is the sum of the hits in all deeper
buckets, of which `running` is the sum of those that were passed. -/
def fillBefore? (hits : Array Nat) : (i running : Nat) → (out : Array Nat) → Option (Array Nat)
  | 0, _, out => some out
  | i + 1, running, out => do
      let hit ← hits[i + 1]?
      let running ← add? running hit
      let out ← update? out i fun _ ↦ some running
      fillBefore? hits i running out

/-- The cumulative counts, through a table of as many buckets as there may be. -/
def measure? (buckets : Nat) (depths : List (Option R)) : Option (List Nat) := do
  let (hits, deepest) ← depths.foldlM (tally? buckets) (Array.replicate buckets 0, 0)
  let out ← fillBefore? hits deepest 0 (Array.replicate deepest 0)
  return out.toList

end Histogram

/-- Fit the decay to the last window of a series of depths. -/
def Calibrator.fit? (c : Calibrator R) (depths : List (Option R)) :
    Option (Except (Error R) (Decay R)) :=
  if depths.length < c.window then
    some (.error (.degenerateFit (.shortHistory depths.length c.window)))
  else do
    let start ← sub? depths.length c.window
    let samples ← from? depths start
    let counts ← Histogram.measure? c.histogramBuckets samples
    let points := c.points counts
    return if points.length < 2 then .error (.degenerateFit (.sparseIntensity points.length))
    else do
      let line ← Line.fit (points.map Prod.fst) (points.map Prod.snd)
      return ⟨Scalar.exp line.intercept, -line.slope, points.length⟩

end MarketMaking
