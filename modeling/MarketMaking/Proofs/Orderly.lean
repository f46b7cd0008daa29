import MarketMaking.Proofs.Pass

/-!
# Orderly venues

What a strategy may expect of a venue: requests are all that enters orders, cancellations of open
orders are accepted, and nothing that the strategy calls touches an active order otherwise. The laws
are asked of the states that the venue can be in, which its operations may not leave. From them
follows what a pass over the orders leaves: of the active orders those that were not stale, and at
most one new one a side.
-/

namespace MarketMaking

variable {R V : Type} [Venue V R]

/-- The entries of the orders that can still be filled. -/
def Venue.active (v : V) : OrderTable R := (Venue.orders v).activeOnly

/-- A venue whose states are those of `Good` and whose ticks always cost `tick`. -/
structure Venue.Orderly (Good : V → Prop) (tick : R) : Prop where
  good_clearTrades {v : V} : Good v → Good (Venue.clearTrades v)
  good_clearInactive {v : V} : Good v → Good (Venue.clearInactive v)
  good_cancel {v : V} (id : OrderId) : Good v → Good (Venue.cancel v id).2
  good_submit {v : V} (request : OrderRequest R) : Good v → Good (Venue.submit v request).2
  /-- No two orders are kept under one identifier. -/
  distinct {v : V} : Good v → ((Venue.orders v).map Prod.fst).Nodup
  /-- A tick always costs the same. -/
  tickSize {v : V} : Good v → Venue.tickSize v = tick
  /-- Forgetting trades brings no active order. -/
  clearTrades {v : V} : Good v → Venue.active (Venue.clearTrades v) ⊆ Venue.active v
  /-- Dropping inactive orders brings and changes no active one. -/
  clearInactive {v : V} : Good v → Venue.active (Venue.clearInactive v) ⊆ Venue.active v
  /-- A cancellation brings and changes no active order. -/
  cancel {v : V} (id : OrderId) : Good v → Venue.active (Venue.cancel v id).2 ⊆ Venue.active v
  /-- A cancelled open order is no longer active, whether it is kept or removed. -/
  cancelled {v : V} {id : OrderId} {order : RestingOrder R} : Good v →
    (id, order) ∈ Venue.active v → order.cancellable = true →
      ∀ entry ∈ Venue.active (Venue.cancel v id).2, entry.1 ≠ id
  /-- A request, accepted or not, brings no more than its order, under the identifier asked for. -/
  submit {v : V} (request : OrderRequest R) : Good v →
    Venue.active (Venue.submit v request).2 ⊆ (request.id, request.accepted) :: Venue.active v

omit [Venue V R] in
private theorem Quote.mem_staleIds [Scalar R] {q : Quote R} {tick : R} {t : OrderTable R}
    {entry : OrderId × RestingOrder R} (mem : entry ∈ t) (stale : q.isStale tick entry.2 = true) :
    entry.2.id ∈ q.staleIds tick t := by
  apply List.mem_map_of_mem
  apply List.mem_filter.mpr
  exact ⟨List.mem_map_of_mem mem, stale⟩

namespace Venue.Orderly

variable {Good : V → Prop} {tick : R}

/-- Cancelling a list of orders leaves a state of the venue. -/
theorem good_cancelAll (orderly : Orderly Good tick) (ids : List OrderId) {v : V} (good : Good v) :
    Good (cancelAll ids v).venue :=
  cancelAll_invariant (fun _ id good ↦ orderly.good_cancel id good) ids good

/-- Cancelling a list of orders brings and changes no active one. -/
theorem active_cancelAll (orderly : Orderly Good tick) (ids : List OrderId) {v : V}
    (good : Good v) : active (cancelAll ids v).venue ⊆ active v := by
  induction ids generalizing v with
  | nil => exact List.Subset.refl _
  | cons id ids ih =>
    exact List.Subset.trans (ih (orderly.good_cancel id good)) (orderly.cancel id good)

private theorem not_mem_of_active_cancelAll (orderly : Orderly Good tick) (ids : List OrderId)
    {v : V} (good : Good v) {entry : OrderId × RestingOrder R}
    (left : entry ∈ active (cancelAll ids v).venue) (cancellable : entry.2.cancellable = true) :
    entry.1 ∉ ids := by
  induction ids generalizing v with
  | nil => exact List.not_mem_nil
  | cons id ids ih =>
    have hgood := orderly.good_cancel id good
    -- What is left at the end was active all the way, so its own cancellation was not asked for.
    have hmid : entry ∈ active (Venue.cancel v id).2 := orderly.active_cancelAll ids hgood left
    have hrest : entry.1 ∉ ids := ih hgood left
    intro hmem
    rcases List.mem_cons.mp hmem with heq | htail
    · have hstart : entry ∈ active v := orderly.cancel id good hmid
      rw [← heq] at hmid
      exact orderly.cancelled good hstart cancellable entry hmid rfl
    · exact hrest htail

variable [Scalar R]

/-- The entry that an accepted request for the quote of a side leaves. -/
def placed (limits : OrderLimits R) (side : Side) (price tick : R) : OrderId × RestingOrder R :=
  ((limits.request side price tick).id, (limits.request side price tick).accepted)

/-- Placing the quote of a side leaves a state of the venue. Every active order was active before or
is the one placed at that quote, and then the limits admitted it. -/
theorem active_placeSide (orderly : Orderly Good tick) (limits : OrderLimits R) (q : Quote R)
    (position : R) (side : Side) {v : V} (good : Good v) :
    Good (limits.placeSide q tick position side v).venue ∧
      ∀ entry ∈ active (limits.placeSide q tick position side v).venue,
        entry ∈ active v ∨ ∃ price, q.on side = some price ∧
          limits.admits position side = true ∧ entry = placed limits side price tick := by
  cases hmissing : limits.missing? q tick position side v with
  | none =>
    rw [OrderLimits.placeSide_of_missing?_eq_none hmissing]
    exact ⟨good, fun entry mem ↦ .inl mem⟩
  | some request =>
    rw [OrderLimits.placeSide_of_missing?_eq_some hmissing]
    refine ⟨orderly.good_submit request good, fun entry mem ↦ ?_⟩
    rcases List.mem_cons.mp (orderly.submit request good mem) with heq | hold
    · obtain ⟨price, hquoted, hadmitted, rfl⟩ :=
        OrderLimits.wanted?_eq_some_iff.mp (OrderLimits.missing?_eq_some_iff.mp hmissing).1
      exact .inr ⟨price, hquoted, hadmitted, heq⟩
    · exact .inl hold

/-! ### Passes -/

/-- Cancelling what is stale for a quote leaves a state of the venue, brings and changes no active
order, and leaves no stale one that could be cancelled under its own identifier. -/
theorem active_cancels (orderly : Orderly Good tick) (q : Quote R) {v : V} (good : Good v) :
    Good (OrderLimits.cancels q v).venue ∧
      active (OrderLimits.cancels q v).venue ⊆ active v ∧
      ∀ entry ∈ active (OrderLimits.cancels q v).venue,
        entry.2.cancellable = true → entry.2.id = entry.1 → q.isStale tick entry.2 = false := by
  have hgood := orderly.good_clearInactive good
  unfold OrderLimits.cancels
  rw [orderly.tickSize hgood]
  refine ⟨orderly.good_cancelAll _ hgood,
    List.Subset.trans (orderly.active_cancelAll _ hgood) (orderly.clearInactive good), ?_⟩
  intro entry left cancellable same
  apply Bool.eq_false_iff.mpr
  intro stale
  have hkept : entry ∈ Venue.orders (Venue.clearInactive v) :=
    (OrderTable.mem_activeOnly.mp (orderly.active_cancelAll _ hgood left)).1
  apply orderly.not_mem_of_active_cancelAll _ hgood left cancellable
  rw [← same]
  exact Quote.mem_staleIds hkept stale

/-- Placing the bid of a pass leaves a state of the venue. Every active order was left by the
cancellations or is the bid, and then the limits admitted it. -/
theorem active_bidPass (orderly : Orderly Good tick) (limits : OrderLimits R) (q : Quote R)
    {v : V} (good : Good v) :
    Good (limits.bidPass q v).venue ∧
      ∀ entry ∈ active (limits.bidPass q v).venue,
        entry ∈ active (OrderLimits.cancels q v).venue ∨ ∃ price, q.on .buy = some price ∧
          limits.admits (Venue.position (OrderLimits.cancels q v).venue) .buy = true ∧
          entry = placed limits .buy price tick := by
  obtain ⟨hcancels, -, -⟩ := orderly.active_cancels q good
  rw [OrderLimits.bidPass, orderly.tickSize (orderly.good_clearInactive good)]
  exact orderly.active_placeSide limits q _ .buy hcancels

/-- Placing the ask of a pass leaves a state of the venue. Every active order was active once the
bid was placed or is the ask, and then the limits admitted it. -/
theorem active_askPass (orderly : Orderly Good tick) (limits : OrderLimits R) (q : Quote R)
    {v : V} (good : Good v) :
    Good (limits.askPass q v).venue ∧
      ∀ entry ∈ active (limits.askPass q v).venue,
        entry ∈ active (limits.bidPass q v).venue ∨ ∃ price, q.on .sell = some price ∧
          limits.admits (Venue.position (OrderLimits.cancels q v).venue) .sell = true ∧
          entry = placed limits .sell price tick := by
  obtain ⟨hbid, -⟩ := orderly.active_bidPass limits q good
  rw [OrderLimits.askPass, orderly.tickSize (orderly.good_clearInactive good)]
  exact orderly.active_placeSide limits q _ .sell hbid

/-- A pass, completed or not, leaves a state of the venue. Every active order was left by the
cancellations or is the one placed at the quote of a side, and then the limits admitted it. -/
theorem active_reconcile (orderly : Orderly Good tick) (limits : OrderLimits R) (q : Quote R)
    {v : V} (good : Good v) :
    Good (limits.reconcile q v).venue ∧
      ∀ entry ∈ active (limits.reconcile q v).venue,
        entry ∈ active (OrderLimits.cancels q v).venue ∨ ∃ side price, q.on side = some price ∧
          limits.admits (Venue.position (OrderLimits.cancels q v).venue) side = true ∧
          entry = placed limits side price tick := by
  obtain ⟨hbid, hbuys⟩ := orderly.active_bidPass limits q good
  obtain ⟨hask, hsells⟩ := orderly.active_askPass limits q good
  rcases OrderLimits.venue_reconcile limits q v with hend | hend
  · rw [hend]
    refine ⟨hbid, ?_⟩
    intro entry mem
    rcases hbuys entry mem with hold | hbuy
    · exact .inl hold
    · exact .inr ⟨.buy, hbuy⟩
  · rw [hend]
    refine ⟨hask, ?_⟩
    intro entry mem
    rcases hsells entry mem with hrest | hsell
    · rcases hbuys entry hrest with hold | hbuy
      · exact .inl hold
      · exact .inr ⟨.buy, hbuy⟩
    · exact .inr ⟨.sell, hsell⟩

end Venue.Orderly

end MarketMaking
