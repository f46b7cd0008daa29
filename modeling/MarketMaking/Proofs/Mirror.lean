import Mathlib.Data.List.Forall2
import MarketMaking.Proofs.Binary64.Same
import MarketMaking.Proofs.Recording

/-!
# Mirror symmetry

A market is mirrored by negating all of its prices: the best ask becomes the best bid, and buys
become sells. What is estimated from a mirrored market is the same, with its moves negated, and the
quote for the negated inventory is mirrored as well. Two runs are followed side by side, with a
relation between what they hold at each stage. All of it is up to the sign of a zero.
-/

namespace MarketMaking

open Binary64 (Same Opposite)

private theorem finite?_rel {P : Float → Float → Prop} {x' x : Float} (rel : P x' x)
    (finite : x'.isFinite = x.isFinite) :
    Option.Rel P (Scalar.finite? x') (Scalar.finite? x) := by
  change Option.Rel P (if x'.isFinite = true then some x' else none)
    (if x.isFinite = true then some x else none)
  rw [finite]
  split
  · exact .some rel
  · exact .none

/-! ## Mirrored markets -/

/-- The trade of the other side at the negated price. -/
def Trade.mirrored {R : Type} [Neg R] (trade : Trade R) : Trade R :=
  { trade with side := trade.side.opposite, price := -trade.price }

/-- What can be seen of a market: its touch, the price of a tick, and its trades. -/
structure Snapshot (R : Type) where
  bestBid : Int
  bestAsk : Int
  tickSize : R
  trades : List (Trade R)

namespace Snapshot

/-- The market that is seen. -/
def market {R : Type} [Scalar R] (s : Snapshot R) : Market R :=
  ⟨.ofTouch s.bestBid s.bestAsk s.tickSize, s.trades⟩

/-- The snapshot with all prices negated. -/
def mirrored {R : Type} [Neg R] (s : Snapshot R) : Snapshot R :=
  ⟨-s.bestAsk, -s.bestBid, s.tickSize, s.trades.map Trade.mirrored⟩

end Snapshot

/-- The first book mirrors the second. -/
structure Book.Mirrors (b' b : Book Float) : Prop where
  bestBid : b'.bestBid = -b.bestAsk
  bestAsk : b'.bestAsk = -b.bestBid
  mid : Opposite b'.mid b.mid
  tickSize : b'.tickSize = b.tickSize

/-- The book of a mirrored snapshot mirrors its book. -/
theorem Snapshot.mirrors_book (s : Snapshot Float) :
    s.mirrored.market.book.Mirrors s.market.book where
  bestBid := rfl
  bestAsk := rfl
  mid := by
    have hsum : -s.bestAsk + -s.bestBid = -(s.bestBid + s.bestAsk) := by omega
    change Opposite (Float.ofInt (-s.bestAsk + -s.bestBid) / Scalar.two)
      (Float.ofInt (s.bestBid + s.bestAsk) / Scalar.two)
    rw [hsum]
    exact (Opposite.ofInt _).div _
  tickSize := rfl

/-! ## Recording -/

namespace Trade

private theorem depthFrom_mirrored {mid' mid : Float} (trade : Trade Float)
    (mirrors : Opposite mid' mid) (tickSize : Float) :
    Same (trade.mirrored.depthFrom mid' tickSize) (trade.depthFrom mid tickSize) := by
  have htick : Opposite (-trade.price / tickSize) (trade.price / tickSize) := (Opposite.neg _).div _
  unfold depthFrom
  cases hside : trade.side with
  | buy => simpa [mirrored, hside, Side.opposite] using mirrors.sub_swap htick
  | sell => simpa [mirrored, hside, Side.opposite] using htick.sub_swap mirrors

private theorem greatestDepth_same {ds' ds : List Float} (same : List.Forall₂ Same ds' ds) :
    Option.Rel Same (greatestDepth ds') (greatestDepth ds) := by
  refine List.rel_foldl (P := Option.Rel Same) (R := Same) ?_ .none same
  intro best' best hbest d' d hd
  cases hbest with
  | none =>
    have hnan : Scalar.isNaN d' = Scalar.isNaN d := hd.isNaN_eq
    simp only [hnan]
    split
    · exact .none
    · exact .some hd
  | some h => exact .some (h.max hd)

end Trade

/-- The first sample mirrors the second: it has the same depth and the opposite change. -/
structure Sample.Mirrors (x' x : Sample Float) : Prop where
  depth : Option.Rel Same x'.depth x.depth
  change : Option.Rel Opposite x'.change x.change

namespace ArrivalHistory

/-- The first history mirrors the second. -/
structure Mirrors (h' h : ArrivalHistory Float) : Prop where
  capacity : h'.capacity = h.capacity
  overflow : h'.overflow = h.overflow
  retain : h'.retain = h.retain
  dropped : h'.dropped = h.dropped
  mid : Option.Rel Opposite h'.mid h.mid
  samples : List.Forall₂ Sample.Mirrors h'.samples.toList h.samples.toList

namespace Mirrors

variable {h' h : ArrivalHistory Float}

/-- Histories that mirror each other hold equally many samples. -/
theorem size_eq (mirrors : Mirrors h' h) : h'.size = h.size := by
  simpa [size] using mirrors.samples.length_eq

/-- Histories that mirror each other refuse alike. -/
theorem refusal?_eq (mirrors : Mirrors h' h) : h'.refusal? = h.refusal? := by
  simp [refusal?, isFull, mirrors.size_eq, mirrors.capacity, mirrors.overflow, mirrors.retain]

/-- Dropping samples keeps the mirror. -/
theorem compact (mirrors : Mirrors h' h) : Mirrors h'.compact h.compact where
  capacity := mirrors.capacity
  overflow := mirrors.overflow
  retain := mirrors.retain
  dropped := by simp [ArrivalHistory.compact, mirrors.size_eq, mirrors.dropped, mirrors.retain]
  mid := mirrors.mid
  samples := by
    unfold ArrivalHistory.compact
    rw [toList_extract_size, toList_extract_size, mirrors.size_eq, mirrors.retain]
    exact List.forall₂_drop _ mirrors.samples

/-- The sample of a mirrored market mirrors its sample. -/
theorem sampleOf (mirrors : Mirrors h' h) (s : Snapshot Float) :
    (h'.sampleOf s.mirrored.market.book s.mirrored.market.trades).Mirrors
      (h.sampleOf s.market.book s.market.trades) := by
  have hbook := s.mirrors_book
  have hmid := mirrors.mid
  unfold ArrivalHistory.sampleOf
  generalize h'.mid = mid' at hmid ⊢
  generalize h.mid = mid at hmid ⊢
  cases hmid with
  | none => exact ⟨.none, .none⟩
  | some hmid =>
    constructor
    · apply Trade.greatestDepth_same
      rw [hbook.tickSize]
      change List.Forall₂ Same ((s.trades.map Trade.mirrored).map _) (s.trades.map _)
      rw [List.map_map, List.forall₂_map_left_iff, List.forall₂_map_right_iff, List.forall₂_same]
      intro trade _
      exact trade.depthFrom_mirrored hmid _
    · exact .some (hbook.mid.sub hmid)

/-- Adding a mirrored market keeps the mirror. -/
theorem push (mirrors : Mirrors h' h) (s : Snapshot Float) :
    Mirrors (h'.push s.mirrored.market.book s.mirrored.market.trades)
      (h.push s.market.book s.market.trades) where
  capacity := mirrors.capacity
  overflow := mirrors.overflow
  retain := mirrors.retain
  dropped := mirrors.dropped
  mid := .some s.mirrors_book.mid
  samples := by
    simp only [ArrivalHistory.push, Array.toList_push]
    exact List.rel_append mirrors.samples (.cons (mirrors.sampleOf s) .nil)

/-- Telling of a mirrored market keeps the mirror, whether the market is refused or not. -/
theorem told (mirrors : Mirrors h' h) (s : Snapshot Float) :
    Mirrors (h'.told s.mirrored.market) (h.told s.market) := by
  have hfull : h'.isFull = h.isFull := by
    simp [isFull, mirrors.capacity, mirrors.size_eq]
  unfold ArrivalHistory.told record
  rw [mirrors.refusal?_eq]
  cases h.refusal? with
  | some e => exact mirrors
  | none =>
    simp only [add, hfull]
    split
    · exact mirrors.compact.push s
    · exact mirrors.push s

/-- Telling of mirrored markets in order keeps the mirror. -/
theorem after (mirrors : Mirrors h' h) (feed : List (Snapshot Float)) :
    Mirrors (h'.after (feed.map fun s ↦ s.mirrored.market))
      (h.after (feed.map Snapshot.market)) := by
  induction feed generalizing h' h with
  | nil => exact mirrors
  | cons s feed ih => exact ih (mirrors.told s)

/-- The depths held are the same. -/
theorem depths (mirrors : Mirrors h' h) :
    List.Forall₂ (Option.Rel Same) h'.depths h.depths := by
  unfold ArrivalHistory.depths
  rw [List.forall₂_map_left_iff, List.forall₂_map_right_iff]
  exact mirrors.samples.imp fun _ _ sample ↦ sample.depth

/-- The changes held are opposite. -/
theorem changes (mirrors : Mirrors h' h) :
    List.Forall₂ (Option.Rel Opposite) h'.changes h.changes := by
  unfold ArrivalHistory.changes
  rw [List.forall₂_map_left_iff, List.forall₂_map_right_iff]
  exact mirrors.samples.imp fun _ _ sample ↦ sample.change

end Mirrors

private theorem mirrors_empty (capacity : Nat) (overflow : HistoryOverflow) (retain : Nat) :
    Mirrors (empty capacity overflow retain) (empty capacity overflow retain) :=
  ⟨rfl, rfl, rfl, rfl, .none, .nil⟩

end ArrivalHistory

/-! ## Estimating -/

section Fit

variable {ds' ds : List (Option Float)}

private theorem Histogram.bucketOf?_same (buckets : Nat) {d' d : Float} (same : Same d' d) :
    bucketOf? buckets d' = bucketOf? buckets d := by
  have hfinite : Scalar.isFinite d' = Scalar.isFinite d := same.isFinite_eq
  have hbucket : Scalar.toInt (Scalar.roundEven (d' / Scalar.half)) =
      Scalar.toInt (Scalar.roundEven (d / Scalar.half)) :=
    ((same.div _).round .toEven).toInt64_eq
  unfold bucketOf?
  rw [hfinite, hbucket]

private theorem Histogram.retained_same (buckets : Nat)
    (same : List.Forall₂ (Option.Rel Same) ds' ds) :
    retained buckets ds' = retained buckets ds := by
  unfold retained
  induction same with
  | nil => rfl
  | cons first _ ih =>
    cases first with
    | none => simpa using ih
    | some h => simp [bucketOf?_same buckets h, ih, List.filterMap_cons]

/-- The same depths have the same fit. -/
theorem Calibrator.fit_same (c : Calibrator Float) (same : List.Forall₂ (Option.Rel Same) ds' ds) :
    c.fit ds' = c.fit ds := by
  have hwindow : c.fitWindow (ds'.drop (ds'.length - c.window)) =
      c.fitWindow (ds.drop (ds.length - c.window)) := by
    unfold fitWindow Histogram.cumulative
    rw [same.length_eq, Histogram.retained_same _ (List.forall₂_drop _ same)]
  unfold fit
  rw [hwindow, same.length_eq]

end Fit

namespace Volatility

/-- The first running state mirrors the second: the same samples with opposite signs were taken in.
-/
structure Deviation.Mirrors (d' d : Deviation Float) : Prop where
  count : d'.count = d.count
  total : Opposite d'.total d.total
  squares : Same d'.squares d.squares

/-- Taking in opposite samples keeps the mirror. -/
theorem Deviation.Mirrors.add {d' d : Deviation Float} (mirrors : d'.Mirrors d) {x' x : Float}
    (opposite : Opposite x' x) : (d'.add x').Mirrors (d.add x) := by
  have htotal : Opposite (d'.total + x') (d.total + x) := mirrors.total.add opposite
  have hdifference : Opposite ((d.count + Scalar.one) * x' - (d'.total + x'))
      ((d.count + Scalar.one) * x - (d.total + x)) :=
    (Opposite.mul_left (.refl _) opposite).sub htotal
  unfold Deviation.add
  rw [mirrors.count]
  exact ⟨rfl, htotal, mirrors.squares.add ((hdifference.mul_opposite hdifference).div _)⟩

/-- Taking in opposite samples in order keeps the mirror. -/
theorem Deviation.Mirrors.foldl {d' d : Deviation Float} (mirrors : d'.Mirrors d)
    {xs' xs : List Float} (opposite : List.Forall₂ Opposite xs' xs) :
    (xs'.foldl Deviation.add d').Mirrors (xs.foldl Deviation.add d) := by
  induction opposite generalizing d' d with
  | nil => exact mirrors
  | cons first _ ih => exact ih (mirrors.add first)

/-- Opposite samples have the same variance. -/
theorem variance_opposite {xs' xs : List Float} (opposite : List.Forall₂ Opposite xs' xs) :
    Same (variance xs') (variance xs) := by
  cases opposite with
  | nil => exact .refl (variance [])
  | @cons x' x xs' xs first rest =>
    have hstart : Deviation.Mirrors ⟨Scalar.one, x', Scalar.zero⟩ ⟨Scalar.one, x, Scalar.zero⟩ :=
      ⟨rfl, first, .refl _⟩
    have hfold := hstart.foldl rest
    unfold variance
    simp only
    rw [hfold.count]
    exact hfold.squares.div _

private theorem usable_opposite {cs' cs : List (Option Float)}
    (opposite : List.Forall₂ (Option.Rel Opposite) cs' cs) :
    List.Forall₂ Opposite (usable cs') (usable cs) := by
  refine List.rel_filterMap (R := Option.Rel Opposite) (P := Opposite) ?_ opposite
  intro c' c h
  cases h with
  | none => exact .none
  | some hx => exact finite?_rel hx hx.isFinite_eq

/-- Opposite changes have the same volatility. -/
theorem estimate_opposite (window : Nat) (normalization : Float) {cs' cs : List (Option Float)}
    (opposite : List.Forall₂ (Option.Rel Opposite) cs' cs) :
    Option.Rel Same (estimate window normalization cs') (estimate window normalization cs) := by
  have husable := usable_opposite (List.forall₂_drop (cs.length - window) opposite)
  unfold estimate
  rw [opposite.length_eq]
  generalize usable (cs'.drop (cs.length - window)) = xs' at husable ⊢
  generalize usable (cs.drop (cs.length - window)) = xs at husable ⊢
  have hvolatility :
      Same ((variance xs').sqrt * normalization) ((variance xs).sqrt * normalization) :=
    (variance_opposite husable).sqrt.mul (.refl _)
  cases husable with
  | nil => exact .none
  | cons _ _ =>
    exact finite?_rel hvolatility hvolatility.isFinite_eq

end Volatility

/-- The calibration that an attempt to calibrate in the name of `step` leaves: the decay and the
volatility of the last windows of a history, or what was there before. -/
def ArrivalHistory.calibrated {R : Type} [Scalar R] (h : ArrivalHistory R) (c : Calibrator R)
    (window : Nat) (normalization : R) (before : Calibration R) (step : Nat) : Calibration R :=
  match c.fit h.depths with
  | .ok decay =>
      let volatility := Volatility.estimate window normalization h.changes
      ⟨decay.a, decay.k, volatility.getD before.volatility, some step⟩
  | .error _ => before

/-- An attempt of a strategy leaves the calibration of its history. -/
theorem Strategy.calibration_fitWindow {R : Type} [Scalar R] (s : Strategy R) (step : Nat) :
    (s.fitWindow step).1.calibration = s.history.calibrated s.config.calibrator
      s.config.calibrationWindow s.config.volatilityNormalization s.calibration step := by
  have hwindow : s.config.calibrator.window = s.config.calibrationWindow := rfl
  unfold fitWindow ArrivalHistory.calibrated
  rw [depths_window, changes_window, ← hwindow, Calibrator.fit_drop, hwindow,
    Volatility.estimate_drop]
  cases s.config.calibrator.fit s.history.depths <;> rfl

/-- The same calibration, up to the sign of a zero volatility. -/
structure Calibration.Alike (c' c : Calibration Float) : Prop where
  a : c'.a = c.a
  k : c'.k = c.k
  volatility : Same c'.volatility c.volatility
  fittedAt : c'.fittedAt = c.fittedAt

/-- A calibration is the same as itself. -/
@[simp] theorem Calibration.Alike.refl (c : Calibration Float) : Alike c c :=
  ⟨rfl, rfl, .refl _, rfl⟩

/-- Histories that mirror each other leave the same calibration. -/
theorem ArrivalHistory.Mirrors.calibrated {h' h : ArrivalHistory Float} (mirrors : Mirrors h' h)
    (c : Calibrator Float) (window : Nat) (normalization : Float) (before : Calibration Float)
    (step : Nat) :
    (h'.calibrated c window normalization before step).Alike
      (h.calibrated c window normalization before step) := by
  have hvolatility := Volatility.estimate_opposite window normalization mirrors.changes
  unfold ArrivalHistory.calibrated
  rw [c.fit_same mirrors.depths]
  cases c.fit h.depths with
  | error e => simp
  | ok decay =>
    refine ⟨rfl, rfl, ?_, rfl⟩
    generalize Volatility.estimate window normalization h'.changes = v' at hvolatility ⊢
    generalize Volatility.estimate window normalization h.changes = v at hvolatility ⊢
    cases hvolatility with
    | none => exact .refl _
    | some same => exact same

/-! ## Quoting -/

namespace Quote

/-- The first quote mirrors the second: it has the same spread and skew, and its prices are those of
the other sides, negated. -/
structure Mirrors (q' q : Quote Float) : Prop where
  halfSpread : Same q'.halfSpread q.halfSpread
  skew : Same q'.skew q.skew
  bidPrice : Opposite q'.bidPrice q.askPrice
  askPrice : Opposite q'.askPrice q.bidPrice

/-- A side is quoted where the other side of the mirrored quote is, at the negated price. -/
theorem Mirrors.on {q' q : Quote Float} (mirrors : Mirrors q' q) (side : Side) :
    Option.Rel Opposite (q'.on side.opposite) (q.on side) := by
  cases side with
  | buy => exact finite?_rel mirrors.askPrice mirrors.askPrice.isFinite_eq
  | sell => exact finite?_rel mirrors.bidPrice mirrors.bidPrice.isFinite_eq

section Tick

variable {b' b : Book Float} (book : b'.Mirrors b) {d' d : Float} (depth : Same d' d)

include book depth

private theorem bidTick_opposite : Opposite (bidTick b' d') (askTick b d) := by
  unfold bidTick askTick
  rw [book.bestBid]
  exact ((book.mid.sub_same depth).round .toEven).min (.ofInt b.bestAsk)

private theorem askTick_opposite : Opposite (askTick b' d') (bidTick b d) := by
  unfold bidTick askTick
  rw [book.bestAsk]
  exact ((book.mid.add_same depth).round .toEven).max (.ofInt b.bestBid)

end Tick

/-- Opposite ticks have opposite prices, if any. -/
theorem priceAt_opposite {tick' tick d' d : Float} (opposite : Opposite tick' tick)
    (depth : Same d' d) (tickSize : Float) :
    Opposite (priceAt tick' d' tickSize) (priceAt tick d tickSize) := by
  have hfinite : Scalar.isFinite d' = Scalar.isFinite d := depth.isFinite_eq
  unfold priceAt
  rw [hfinite]
  split
  · exact opposite.mul (.refl _)
  · exact .inr ⟨by decide +kernel, by decide +kernel⟩

/-- Around mirrored books, for the same calibration and opposite inventories, there is no quote for
the same reason, or quotes that mirror each other. -/
theorem around_mirrors (params : RiskParams Float) {c' c : Calibration Float} (alike : c'.Alike c)
    {b' b : Book Float} (book : b'.Mirrors b) {p' p : Float} (position : Opposite p' p) :
    (∃ e, around params c' b' p' = .error e ∧ around params c b p = .error e) ∨
      ∃ q' q, around params c' b' p' = .ok q' ∧ around params c b p = .ok q ∧ Mirrors q' q := by
  unfold around
  rw [alike.a, alike.k]
  cases Coefficients.ofDecay params c.a c.k with
  | error e => exact .inl ⟨e, rfl, rfl⟩
  | ok coefficients =>
    have hspread : Same (coefficients.halfSpread params.delta c'.volatility)
        (coefficients.halfSpread params.delta c.volatility) :=
      (Same.refl _).add ((Same.refl _).mul alike.volatility)
    have hskew : Same (coefficients.skew c'.volatility) (coefficients.skew c.volatility) :=
      (Same.refl _).mul alike.volatility
    have hshift := Opposite.mul_left hskew position
    refine .inr ⟨_, _, rfl, rfl, ⟨hspread, hskew, ?_, ?_⟩⟩
    · rw [book.tickSize]
      exact priceAt_opposite (bidTick_opposite book (Opposite.same_add hspread hshift))
        (Opposite.same_add hspread hshift) _
    · rw [book.tickSize]
      exact priceAt_opposite (askTick_opposite book (Opposite.same_sub hspread hshift))
        (Opposite.same_sub hspread hshift) _

end Quote

/-! ## Estimates and quotes of a mirrored market -/

/-- A feed of markets is followed beside its mirror. The histories hold the same depths and opposite
changes, the fit to them comes to the same and so does the volatility. With the calibration that
results, the quote around any mirrored book for the negated inventory is missing for the same
reason, or it has the same spread and skew and the negated prices of the other sides. All of this is
up to the sign of a zero. -/
theorem ArrivalHistory.mirror_symmetry (capacity : Nat) (overflow : HistoryOverflow) (retain : Nat)
    (feed : List (Snapshot Float)) (calibrator : Calibrator Float) (window : Nat)
    (normalization : Float) (before : Calibration Float) (step : Nat) (params : RiskParams Float)
    (position : Float) (last : Snapshot Float) :
    let start : ArrivalHistory Float := empty capacity overflow retain
    let h := start.after (feed.map Snapshot.market)
    let h' := start.after (feed.map fun s ↦ s.mirrored.market)
    let calibration := h.calibrated calibrator window normalization before step
    let calibration' := h'.calibrated calibrator window normalization before step
    let quote := Quote.around params calibration last.market.book position
    let quote' := Quote.around params calibration' last.mirrored.market.book (-position)
    List.Forall₂ (Option.Rel Same) h'.depths h.depths ∧
      List.Forall₂ (Option.Rel Opposite) h'.changes h.changes ∧
      calibrator.fit h'.depths = calibrator.fit h.depths ∧
      Option.Rel Same (Volatility.estimate window normalization h'.changes)
        (Volatility.estimate window normalization h.changes) ∧
      calibration'.Alike calibration ∧
      ((∃ e, quote' = .error e ∧ quote = .error e) ∨
        ∃ q' q, quote' = .ok q' ∧ quote = .ok q ∧ q'.Mirrors q ∧
          ∀ side : Side, Option.Rel Opposite (q'.on side.opposite) (q.on side)) := by
  intro start h h' calibration calibration' quote quote'
  have hmirrors : h'.Mirrors h := (mirrors_empty capacity overflow retain).after feed
  have halike : calibration'.Alike calibration :=
    hmirrors.calibrated calibrator window normalization before step
  refine ⟨hmirrors.depths, hmirrors.changes, calibrator.fit_same hmirrors.depths,
    Volatility.estimate_opposite window normalization hmirrors.changes, halike, ?_⟩
  rcases Quote.around_mirrors params halike last.mirrors_book (.neg position) with
    missing | ⟨q', q, hq', hq, hquote⟩
  · exact .inl missing
  · exact .inr ⟨q', q, hq', hq, hquote, hquote.on⟩

end MarketMaking
