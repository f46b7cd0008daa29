import MarketMaking.Proofs.Depth
import MarketMaking.Proofs.Levels
import MarketMaking.Proofs.Requests

/-!
# Requests stay on their side of the touch

Whatever the depth of a quote comes to, infinite or unknown included, its tick is not beyond the
touch of its side. Multiplying by the price of a tick keeps that, and what is not finite after it is
not quoted. So every request of a step is post-only in its price too.
-/

namespace MarketMaking

open Binary64 (value)

/-! ### The touch -/

/-- Does a price stay on the side of the touch that a post-only order of `side` rests at? -/
def Book.Respects (book : Book Float) : Side → Float → Prop
  | .buy, price => Float.le price (Float.ofInt book.bestBid * book.tickSize) = true
  | .sell, price => Float.le (Float.ofInt book.bestAsk * book.tickSize) price = true

namespace Quote

private theorem finite?_nan : Scalar.finite? (Scalar.nan : Float) = none := by
  have hnan : Scalar.isFinite (Scalar.nan : Float) = false := by decide +kernel
  unfold Scalar.finite?
  rw [hnan]
  rfl

variable {q : Quote Float} {side : Side} {price : Float}

/-- A computed quote is finite where it quotes, and respects the touch of its book. -/
theorem respects_around {params : RiskParams Float} {calibration : Calibration Float}
    {book : Book Float} {position : Float}
    (computed : Quote.around params calibration book position = .ok q)
    (finite : book.tickSize.isFinite = true) (pos : 0 < value book.tickSize)
    (quoted : q.on side = some price) : price.isFinite = true ∧ book.Respects side price := by
  obtain ⟨-, hfinite, rfl⟩ := (on_eq_some_iff computed).mp quoted
  refine ⟨hfinite, ?_⟩
  cases side with
  | buy => exact Binary64.mul_le_mul_of_pos (bidTick_le_bestBid book _) finite pos
  | sell => exact Binary64.mul_le_mul_of_pos (bestAsk_le_askTick book _) finite pos

private theorem on_suppressed : (suppressed : Quote Float).on side = none := by
  cases side <;> exact finite?_nan

end Quote

/-- On a book that is not crossed, prices that respect the touch are not crossed either. -/
theorem Book.le_of_respects (book : Book Float) {bid ask : Float}
    (uncrossed : book.bestBid ≤ book.bestAsk) (finite : book.tickSize.isFinite = true)
    (pos : 0 < value book.tickSize) (hbid : book.Respects .buy bid)
    (hask : book.Respects .sell ask) : Float.le bid ask = true := by
  have htouch := Binary64.mul_le_mul_of_pos (Binary64.ofInt_le_ofInt uncrossed) finite pos
  obtain ⟨hknown, -, hle⟩ := Binary64.le_iff.mp hbid
  obtain ⟨-, hknown', hle'⟩ := Binary64.le_iff.mp hask
  obtain ⟨-, -, hbetween⟩ := Binary64.le_iff.mp htouch
  exact Binary64.le_iff.mpr ⟨hknown, hknown', hle.trans (hbetween.trans hle')⟩

/-! ### Steps -/

namespace Strategy

variable {V : Type} [Venue V Float] {s : Strategy Float} {v : V} {side : Side} {price : Float}

/-- The quote of a step is finite where it quotes, and respects the touch at the venue. -/
theorem respects_quoted (finite : (Venue.tickSize v).isFinite = true)
    (pos : 0 < value (Venue.tickSize v)) (quoted : (s.quoted v).1.on side = some price) :
    price.isFinite = true ∧ (Venue.book v).Respects side price := by
  have hsuppressed : (Quote.suppressed : Quote Float).on side ≠ some price := by
    rw [Quote.on_suppressed]
    exact Option.some_ne_none price |>.symm
  unfold Strategy.quoted Strategy.quotation at quoted
  split at quoted
  · split at quoted
    · next computed => exact Quote.respects_around computed finite pos quoted
    · exact absurd quoted hsuppressed
  · exact absurd quoted hsuppressed

/-- Every order that a step requests is the order of its quote on some side. -/
theorem request_eq_of_mem {request : OrderRequest Float}
    (mem : request ∈ Event.requests (s.step v).events) :
    ∃ side price, (s.quoted v).1.on side = some price ∧
      request = s.config.orderLimits.request side price
        (Venue.tickSize (Venue.clearInactive (Venue.clearTrades v))) := by
  have hpass := (s.requests_step v).subset mem
  have hwanted := (OrderLimits.requests_reconcile _ _ _).subset hpass
  obtain ⟨side, -, hside⟩ := List.mem_filterMap.mp hwanted
  unfold OrderLimits.wanted? at hside
  split at hside
  · next price hprice =>
    split at hside
    · exact ⟨side, price, hprice, (Option.some.inj hside).symm⟩
    · cases hside
  · cases hside

end Strategy

/-! ### Sessions -/

namespace Session

variable {V : Type} [Venue V Float] {market : V → V → Prop} {c : Config Float} {v₀ v : V}
  {s : Strategy Float}

/-- In any session, with a positive price of a tick on the book, a step requests at most one order a
side, the bid first. All are post-only, of the configured quantity and under the level of their
price at the tick that the pass reads. The price is finite and respects the touch. Quotes on a book
that is not crossed are not crossed. -/
theorem requests_post_only (session : Session market c v₀ s v)
    (finite : Scalar.isFinite (Venue.tickSize v) = true)
    (positive : Scalar.isPositive (Venue.tickSize v) = true) :
    (∀ request ∈ Event.requests (s.step v).events,
      request.timeInForce = .goodTillCrossing ∧ request.qty = c.orderQty ∧
        request.id = OrderId.ofPrice request.price
          (Venue.tickSize (Venue.clearInactive (Venue.clearTrades v))) ∧
        request.price.isFinite = true ∧ (Venue.book v).Respects request.side request.price) ∧
    ((Event.requests (s.step v).events).map OrderRequest.side).Sublist [.buy, .sell] ∧
    (Venue.bestBid v ≤ Venue.bestAsk v → ∀ bid ask, (s.quoted v).1.on .buy = some bid →
      (s.quoted v).1.on .sell = some ask → Float.le bid ask = true) := by
  obtain ⟨-, hpos⟩ := Binary64.isPositive_iff.mp positive
  refine ⟨?_, ?_, ?_⟩
  · intro request mem
    obtain ⟨side, price, hquoted, rfl⟩ := Strategy.request_eq_of_mem mem
    obtain ⟨hfinite, hrespects⟩ := Strategy.respects_quoted finite hpos hquoted
    rw [session.config_eq]
    exact ⟨rfl, rfl, rfl, hfinite, hrespects⟩
  · exact s.requests_sides v
  · intro uncrossed bid ask hbid hask
    obtain ⟨-, hbelow⟩ := Strategy.respects_quoted finite hpos hbid
    obtain ⟨-, habove⟩ := Strategy.respects_quoted finite hpos hask
    exact (Venue.book v).le_of_respects uncrossed finite hpos hbelow habove

/-- The third step at a venue where the second fit falls with the distance. No proof evaluates the
logarithm of a double. Run, the step requests a bid under the level 97 and an offer under 104. -/
theorem requests_post_only_falling :
    let first := (Strategy.fresh Config.brief).step ReplayVenue.falling
    let second := first.strategy.step (first.venue.elapse 100).2
    let s := second.strategy
    let v := (second.venue.elapse 100).2
    Scalar.isFinite (Venue.tickSize v) = true ∧ Scalar.isPositive (Venue.tickSize v) = true ∧
      (∀ request ∈ Event.requests (s.step v).events,
        request.timeInForce = .goodTillCrossing ∧ request.qty = Config.brief.orderQty ∧
          request.id = OrderId.ofPrice request.price
            (Venue.tickSize (Venue.clearInactive (Venue.clearTrades v))) ∧
          request.price.isFinite = true ∧ (Venue.book v).Respects request.side request.price) ∧
      ((Event.requests (s.step v).events).map OrderRequest.side).Sublist [.buy, .sell] ∧
      (Venue.bestBid v ≤ Venue.bestAsk v → ∀ bid ask, (s.quoted v).1.on .buy = some bid →
        (s.quoted v).1.on .sell = some ask → Float.le bid ask = true) := by
  intro first second s v
  let market := Venue.Executes (ReplayVenue.Sound (0.5 : Float))
  have hsound : ReplayVenue.Sound 0.5 ReplayVenue.falling := ⟨List.nodup_nil, rfl⟩
  have hfirst : Session market Config.brief ReplayVenue.falling first.strategy first.venue :=
    .step (.start Config.start_brief)
  have hsecond : Session market Config.brief ReplayVenue.falling second.strategy second.venue :=
    .step (hfirst.elapse hsound rfl 100)
  have hsession : Session market Config.brief ReplayVenue.falling s v :=
    hsecond.elapse hsound rfl 100
  have htick : Venue.tickSize v = (0.5 : Float) :=
    (hsession.keyed (ReplayVenue.orderly 0.5) hsound rfl).1.2
  have hfinite : Scalar.isFinite (Venue.tickSize v) = true := by
    rw [htick]
    decide +kernel
  have hpositive : Scalar.isPositive (Venue.tickSize v) = true := by
    rw [htick]
    decide +kernel
  exact ⟨hfinite, hpositive, hsession.requests_post_only hfinite hpositive⟩

end Session

end MarketMaking
