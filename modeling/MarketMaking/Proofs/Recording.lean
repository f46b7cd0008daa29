import Mathlib.Data.List.Induction
import MarketMaking.Binary64.Scalar
import MarketMaking.Proofs.Binary64.Order
import MarketMaking.Proofs.Capacity
import MarketMaking.Proofs.Market
import MarketMaking.Proofs.Series

/-!
# Recording on a tape without an end

A history is told of one market after another and accepts them or not. What it holds is the end of
the tape on which every accepted market has its sample, however often old samples were dropped. The
sample of a market is read off the tape of markets alone: its change is the difference of two
middles, and its depth the greatest of the distances that are known, in whatever order its trades
come.
-/

namespace MarketMaking

variable {R : Type} [Scalar R]

/-! ## The greatest distance -/

namespace Trade

/-- Among some distances, `depth` is one that none of the known distances exceeds. There is none
only where no distance is known. As zeros of both signs do not exceed each other, either may be the
greatest. -/
def IsDeepest (distances : List Float) : (depth : Option Float) → Prop
  | none => ∀ d ∈ distances, d.isNaN = true
  | some depth => depth ∈ distances ∧ depth.isNaN = false ∧
      ∀ d ∈ distances, d.isNaN = false → Float.le d depth = true

private theorem greatestDepth_concat (distances : List R) (d : R) :
    greatestDepth (distances ++ [d]) = match greatestDepth distances with
      | some best => some (Scalar.max best d)
      | none => if Scalar.isNaN d then none else some d := by
  rw [greatestDepth, List.foldl_append]
  rfl

/-- The larger of two doubles is one of them, is known where the first is, and is exceeded by
neither of those that are known. -/
theorem max_spec {x : Float} (known : x.isNaN = false) (y : Float) :
    (Scalar.max x y = x ∨ Scalar.max x y = y) ∧ (Scalar.max x y).isNaN = false ∧
      Float.le x (Scalar.max x y) = true ∧
      (y.isNaN = false → Float.le y (Scalar.max x y) = true) := by
  have hmax : Scalar.max x y = if y.isNaN || Float.lt y x then x else y := rfl
  have hself : Float.le x x = true := Binary64.le_iff.mpr ⟨known, known, le_refl _⟩
  rw [hmax]
  cases hy : y.isNaN with
  | true => exact ⟨.inl rfl, known, hself, nofun⟩
  | false =>
    cases hlt : Float.lt y x with
    | true =>
      have hvalue := (Binary64.lt_iff.mp hlt).2.2
      exact ⟨.inl rfl, known, hself, fun _ ↦ Binary64.le_iff.mpr ⟨hy, known, hvalue.le⟩⟩
    | false =>
      have hvalue : Binary64.value x ≤ Binary64.value y := by
        by_contra hgt
        rw [Binary64.lt_iff.mpr ⟨hy, known, not_le.mp hgt⟩] at hlt
        cases hlt
      exact ⟨.inr rfl, hy, Binary64.le_iff.mpr ⟨known, hy, hvalue⟩,
        fun _ ↦ Binary64.le_iff.mpr ⟨hy, hy, le_refl _⟩⟩

/-- Comparing the distances one after another finds the greatest of those that are known. -/
theorem greatestDepth_isDeepest (distances : List Float) :
    IsDeepest distances (greatestDepth distances) := by
  -- the fold takes its distances from the left, so the last one is split off
  induction distances using List.reverseRecOn with
  | nil => exact nofun
  | append_singleton distances d ih =>
    rw [greatestDepth_concat]
    cases hbest : greatestDepth distances with
    | none =>
      rw [hbest] at ih
      change IsDeepest _ (if d.isNaN then none else some d)
      cases hd : d.isNaN with
      | true =>
        intro other mem
        rcases List.mem_append.mp mem with before | last
        · exact ih other before
        · rwa [List.mem_singleton.mp last]
      | false =>
        refine ⟨List.mem_concat_self, hd, ?_⟩
        intro other mem known
        rcases List.mem_append.mp mem with before | last
        · rw [ih other before] at known
          cases known
        · obtain rfl := List.mem_singleton.mp last
          exact Binary64.le_iff.mpr ⟨hd, hd, le_refl _⟩
    | some best =>
      rw [hbest] at ih
      obtain ⟨mem, known, greatest⟩ := ih
      obtain ⟨hone, hknown, hleft, hright⟩ := max_spec known d
      refine ⟨?_, hknown, ?_⟩
      · rcases hone with h | h <;> simp [h, mem]
      · intro other hmem hother
        rcases List.mem_append.mp hmem with before | last
        · have hfirst := Binary64.le_iff.mp (greatest other before hother)
          have hsecond := Binary64.le_iff.mp hleft
          exact Binary64.le_iff.mpr ⟨hother, hknown, hfirst.2.2.trans hsecond.2.2⟩
        · obtain rfl := List.mem_singleton.mp last
          exact hright hother

end Trade

/-! ## The tape of some markets -/

namespace Market

/-- The tape of some markets has an entry for each of them. The first entry is empty. In a later one
the change is the difference from the middle before, and the depth the greatest known distance from
it. -/
structure IsTape (markets : List (Market Float)) (tape : List (Sample Float)) : Prop where
  length_eq : tape.length = markets.length
  first {sample : Sample Float} : tape[0]? = some sample → sample = ⟨none, none⟩
  later {t : Nat} {before m : Market Float} {sample : Sample Float} :
    markets[t]? = some before → markets[t + 1]? = some m → tape[t + 1]? = some sample →
      sample.change = some (m.book.mid - before.book.mid) ∧
        Trade.IsDeepest (m.distances before) sample.depth

/-- A market that is not the first is measured against the one before. -/
theorem getElem?_samplesBehind {first : Option (Market R)} {markets : List (Market R)} {t : Nat}
    {before m : Market R} (hbefore : markets[t]? = some before) (hm : markets[t + 1]? = some m) :
    (samplesBehind first markets)[t + 1]? = some (m.sample (some before)) := by
  induction markets generalizing first t with
  | nil => cases hm
  | cons head markets ih =>
    rw [samplesBehind, List.getElem?_cons_succ]
    rw [List.getElem?_cons_succ] at hm
    cases t with
    | zero =>
      obtain rfl := Option.some.inj hbefore
      obtain ⟨rest, rfl⟩ : ∃ rest, markets = m :: rest := by
        cases markets with
        | nil => cases hm
        | cons second rest => exact ⟨rest, by rw [Option.some.inj hm]⟩
      rfl
    | succ t => exact ih hbefore hm

/-- The samples of some markets are their tape. -/
theorem samples_isTape (markets : List (Market Float)) : IsTape markets (samples markets) where
  length_eq := length_samples markets
  first first := by
    cases markets with
    | nil => cases first
    | cons m markets => exact (Option.some.inj first).symm
  later hbefore hm hsample := by
    rw [samples, getElem?_samplesBehind hbefore hm] at hsample
    obtain rfl := Option.some.inj hsample
    exact ⟨rfl, Trade.greatestDepth_isDeepest _⟩

end Market

/-! ## Histories and what they are told -/

namespace ArrivalHistory

/-- The history after it was told of a market, which it may refuse. -/
def told (h : ArrivalHistory R) (m : Market R) : ArrivalHistory R :=
  match h.record m.book m.trades with
  | .ok h => h
  | .error _ => h

/-- The history after it was told of some markets in order. -/
def after (h : ArrivalHistory R) (calls : List (Market R)) : ArrivalHistory R := calls.foldl told h

/-- The markets that a history accepts when it is told of some in order. -/
def accepted (h : ArrivalHistory R) : (calls : List (Market R)) → List (Market R)
  | [] => []
  | m :: calls =>
      match h.record m.book m.trades with
      | .ok h => m :: accepted h calls
      | .error _ => accepted h calls

/-- One more call is made to the history that the calls before it left. -/
theorem after_concat (h : ArrivalHistory R) (calls : List (Market R)) (m : Market R) :
    h.after (calls ++ [m]) = (h.after calls).told m := List.foldl_concat ..

/-- One more call is accepted, or not, by the history that the calls before it left. -/
theorem accepted_concat (h : ArrivalHistory R) (calls : List (Market R)) (m : Market R) :
    h.accepted (calls ++ [m]) = h.accepted calls ++ (h.after calls).accepted [m] := by
  induction calls generalizing h with
  | nil => rfl
  | cons first calls ih =>
    rw [after, List.foldl_cons, ← after, List.cons_append, accepted, accepted, told]
    cases h.record first.book first.trades with
    | error e => exact ih h
    | ok next => exact congrArg (first :: ·) (ih next)

variable {capacity retain : Nat} {overflow : HistoryOverflow} {h : ArrivalHistory R}
  {markets : List (Market R)}

/-- A history of the given bounds that has recorded exactly these markets. It holds no more samples
than fit, and all of them or more than it keeps when it drops the others. -/
structure Follows (capacity : Nat) (overflow : HistoryOverflow) (retain : Nat)
    (h : ArrivalHistory R) (markets : List (Market R)) : Prop where
  records : h.Records markets 0
  capacity_eq : h.capacity = capacity
  overflow_eq : h.overflow = overflow
  retain_eq : h.retain = min retain capacity
  size_le : h.size ≤ capacity
  le_size : min markets.length (min retain capacity + 1) ≤ h.size

namespace Follows

/-- The empty history has recorded no market. -/
theorem empty (capacity : Nat) (overflow : HistoryOverflow) (retain : Nat) :
    Follows capacity overflow retain (.empty capacity overflow retain : ArrivalHistory R) [] where
  records := ⟨holds_empty _ _ _, rfl, .inl rfl, Nat.zero_le _, Nat.zero_le _⟩
  capacity_eq := rfl
  overflow_eq := rfl
  retain_eq := rfl
  size_le := Nat.zero_le _
  le_size := Nat.min_le_left _ _

/-- No more samples are kept than fit. -/
theorem keeps (follows : Follows capacity overflow retain h markets) : h.retain ≤ h.capacity := by
  rw [follows.retain_eq, follows.capacity_eq]
  exact Nat.min_le_right retain capacity

/-- A market is refused by a full history that may not drop samples or would keep them all. -/
theorem refusal?_eq (follows : Follows capacity overflow retain h markets) :
    h.refusal? =
      if h.size = capacity ∧ (overflow = .fail ∨ min retain capacity = capacity) then
        some (.historyCapacityExceeded capacity)
      else none := by
  have hrefusal :=
    refusal?_eq_ite (follows.size_le.trans_eq follows.capacity_eq.symm) follows.keeps
  rwa [follows.capacity_eq, follows.overflow_eq, follows.retain_eq] at hrefusal

/-- A market that is refused fails with the capacity, and any other one is added. -/
theorem record_eq (follows : Follows capacity overflow retain h markets) (m : Market R) :
    h.record m.book m.trades =
      if h.size = capacity ∧ (overflow = .fail ∨ min retain capacity = capacity) then
        .error (.historyCapacityExceeded capacity)
      else .ok (h.add m.book m.trades) := by
  rw [record, follows.refusal?_eq]
  by_cases full : h.size = capacity ∧ (overflow = .fail ∨ min retain capacity = capacity)
  · rw [if_pos full, if_pos full]
  · rw [if_neg full, if_neg full]

/-- A market that is not refused is recorded behind the others. -/
theorem add (follows : Follows capacity overflow retain h markets) (room : h.refusal? = none)
    (m : Market R) :
    Follows capacity overflow retain (h.add m.book m.trades) (markets ++ [m]) where
  records := follows.records.add m
  capacity_eq := (capacity_add h m.book m.trades).trans follows.capacity_eq
  overflow_eq := (overflow_add h m.book m.trades).trans follows.overflow_eq
  retain_eq := (retain_add h m.book m.trades).trans follows.retain_eq
  size_le := by
    have hcapacity := (capacity_add h m.book m.trades).trans follows.capacity_eq
    rw [← hcapacity]
    exact size_add_le m.book m.trades room (follows.size_le.trans_eq follows.capacity_eq.symm)
  le_size := by
    have hle := follows.le_size
    rw [size_add, List.length_append, List.length_singleton, follows.capacity_eq, follows.retain_eq]
    split <;> omega

end Follows

/-! ## What a history shows -/

/-- Whatever a history is told, it follows the markets that it accepted. -/
theorem Follows.after (follows : Follows capacity overflow retain h markets)
    (calls : List (Market R)) :
    Follows capacity overflow retain (h.after calls) (markets ++ h.accepted calls) := by
  induction calls generalizing h markets with
  | nil => simpa [ArrivalHistory.after, accepted] using follows
  | cons m calls ih =>
    rw [ArrivalHistory.after, List.foldl_cons, ← ArrivalHistory.after, told, accepted, record]
    cases hr : h.refusal? with
    | some e => exact ih follows
    | none =>
      have hnext := ih (follows.add hr m)
      rwa [List.append_assoc, List.singleton_append] at hnext

/-- A history that drops samples and keeps fewer than fit accepts every market. -/
theorem Follows.accepted_eq (follows : Follows capacity .compact retain h markets)
    (fits : min retain capacity < capacity) (calls : List (Market R)) :
    h.accepted calls = calls := by
  induction calls generalizing h markets with
  | nil => rfl
  | cons m calls ih =>
    have hroom : h.refusal? = none := by
      rw [follows.refusal?_eq, if_neg]
      rintro ⟨-, hfail | hkept⟩
      · cases hfail
      · exact fits.ne hkept
    simp only [accepted, record, hroom]
    rw [ih (follows.add hroom m)]

/-- A window is held when it is not empty and no longer than what is held. -/
theorem Follows.window?_eq (follows : Follows capacity overflow retain h markets) (n : Nat) :
    h.window? n = if 1 ≤ n ∧ n ≤ h.size then
      some ((Market.samples markets).drop (markets.length - n)) else none := by
  rw [window?]
  by_cases held : 1 ≤ n ∧ n ≤ h.size
  · rw [if_pos held, if_neg (by omega), follows.records.holds.last_eq (.inr held.2),
      Market.length_samples]
  · rw [if_neg held, if_pos (by omega)]

/-- The samples held are the last ones of the tape. -/
theorem Follows.toList_eq (follows : Follows capacity overflow retain h markets) :
    h.samples.toList = (Market.samples markets).drop (markets.length - h.size) := by
  have hold := follows.records.holds
  have hsize := hold.size_eq
  have hdropped := hold.dropped_le
  rw [Market.length_samples] at hsize hdropped
  rw [hold.toList_eq]
  congr 1
  omega

end ArrivalHistory

namespace SeriesHistory

/-- Tell a history of some markets in order. Every call is made to the history that the call before
it left, whether that failed or not. Beside the history in the end there are the markets that were
accepted. -/
def tell? (h : SeriesHistory R) :
    (calls : List (Market R)) → Option (List (Market R) × SeriesHistory R)
  | [] => some ([], h)
  | m :: calls => do
      match ← h.record? m.book m.trades with
      | (.error _, h) => h.tell? calls
      | (.ok (), h) =>
          let (markets, h) ← h.tell? calls
          return (m :: markets, h)

open ArrivalHistory (Follows)

variable {capacity retain : Nat} {overflow : HistoryOverflow} {h : ArrivalHistory R}
  {markets : List (Market R)}

/-- What two series are told has the effect of what a history of samples is told. -/
theorem tell?_series (follows : Follows capacity overflow retain h markets)
    (calls : List (Market R)) :
    h.series.tell? calls = some (h.accepted calls, (h.after calls).series) := by
  induction calls generalizing h markets with
  | nil => rfl
  | cons m calls ih =>
    have hrecord := ArrivalHistory.record?_series follows.keeps m.book m.trades
    rw [tell?, hrecord, ArrivalHistory.after, List.foldl_cons, ← ArrivalHistory.after,
      ArrivalHistory.told, ArrivalHistory.accepted, ArrivalHistory.record]
    cases hr : h.refusal? with
    | some e => exact ih follows
    | none =>
      simp only [Option.bind_eq_bind, Option.bind_some, ih (follows.add hr m)]
      rfl

/-- Whatever a history of any bounds is told, it shows the end of the tape of the markets that it
accepted and the middle of the last of them. Its two series are of one length, which is no more than
fits. It refuses a market when it is full and may not drop samples, or would keep them all, and is
then left as it was. A history that drops samples and keeps fewer than fit refuses none, and holds
more than it keeps from the time when so many have been accepted. -/
theorem shows_tape (capacity : Nat) (overflow : HistoryOverflow) (retain : Nat)
    (calls : List (Market Float)) :
    let start : SeriesHistory Float := empty capacity overflow retain
    ∃ markets h, start.tell? calls = some (markets, h) ∧
      let tape := Market.samples markets
      let full := h.size = capacity ∧ (overflow = .fail ∨ min retain capacity = capacity)
      Market.IsTape markets tape ∧
        (h.depths.length = h.changes.length ∧ h.size ≤ capacity) ∧
        h.depths = (tape.map Sample.depth).drop (tape.length - h.size) ∧
        h.changes = (tape.map Sample.change).drop (tape.length - h.size) ∧
        h.recorded = tape.length ∧
        h.mid = markets.getLast?.map (·.book.mid) ∧
        (∀ n, h.window? n = some (if 1 ≤ n ∧ n ≤ h.size then
            some ((tape.map Sample.depth).drop (tape.length - n),
              (tape.map Sample.change).drop (tape.length - n))
          else none)) ∧
        (∀ m : Market Float,
          (full → h.record? m.book m.trades =
            some (.error (.historyCapacityExceeded capacity), h)) ∧
          (¬ full → ∃ next, h.record? m.book m.trades = some (.ok (), next) ∧
            start.tell? (calls ++ [m]) = some (markets ++ [m], next))) ∧
        (overflow = .compact ∧ min retain capacity < capacity →
          markets = calls ∧ min tape.length (min retain capacity + 1) ≤ h.size) := by
  intro start
  let first : ArrivalHistory Float := .empty capacity overflow retain
  let h := first.after calls
  let markets := first.accepted calls
  have hempty : Follows capacity overflow retain first [] := .empty capacity overflow retain
  have follows : Follows capacity overflow retain h markets := hempty.after calls
  have hlength : (Market.samples markets).length = markets.length := Market.length_samples markets
  have hsize : h.series.size = h.size := h.size_series
  refine ⟨markets, h.series, tell?_series hempty calls, Market.samples_isTape markets, ⟨?_, ?_⟩, ?_,
    ?_, ?_, follows.records.mid, ?_, fun m ↦ ⟨fun full ↦ ?_, fun room ↦ ?_⟩, ?_⟩
  · exact h.length_depths.trans h.length_changes.symm
  · exact hsize.trans_le follows.size_le
  · rw [hsize, hlength, ← List.map_drop, ← follows.toList_eq]
    rfl
  · rw [hsize, hlength, ← List.map_drop, ← follows.toList_eq]
    rfl
  · rw [ArrivalHistory.recorded_series, follows.records.recorded_eq, hlength]
  · intro n
    rw [h.window?_series, hsize, follows.window?_eq, hlength]
    split
    · rw [Option.map_some, List.map_drop, List.map_drop]
    · rfl
  · rw [hsize] at full
    rw [ArrivalHistory.record?_series follows.keeps, follows.record_eq, if_pos full]
  · rw [hsize] at room
    have hrecord : h.record m.book m.trades = .ok (h.add m.book m.trades) := by
      rw [follows.record_eq, if_neg room]
    refine ⟨(h.add m.book m.trades).series, ?_, ?_⟩
    · rw [ArrivalHistory.record?_series follows.keeps, hrecord]
    · have htell := tell?_series hempty (calls ++ [m])
      have hlast : h.accepted [m] = [m] := by simp only [ArrivalHistory.accepted, hrecord]
      have htold : h.told m = h.add m.book m.trades := by rw [ArrivalHistory.told, hrecord]
      rwa [first.after_concat, first.accepted_concat, hlast, htold] at htell
  · rintro ⟨rfl, fits⟩
    refine ⟨hempty.accepted_eq fits calls, ?_⟩
    rw [hsize, hlength]
    exact follows.le_size

/-- The step after the last one that fits leaves one sample more than are kept. -/
example : ((empty 3 .compact 1 : SeriesHistory Float).tell?
    (List.replicate 4 ⟨.ofTouch 100 101 0.5, []⟩)).map (·.2.size) = some 2 := by decide +kernel

end SeriesHistory

end MarketMaking
