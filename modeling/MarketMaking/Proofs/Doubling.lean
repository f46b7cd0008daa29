import MarketMaking.Binary64.Scalar
import MarketMaking.Proofs.Levels
import MarketMaking.Proofs.View
import MarketMaking.Venue.Replay

/-!
# Levels that are quoted twice

A pass asks for an order when no order is kept under the identifier of the level. While orders are
kept under the levels of their prices, none is quoted twice. An order that rests at the level under
another identifier, one that was entered by someone else or before the price of a tick changed, does
not keep the pass from quoting the level a second time. To say what rests where at the moment of a
request, the requests are noted beside the venue.
-/

namespace MarketMaking

variable {R V : Type}

/-! ### Noting requests -/

/-- A venue beside which every request for an order is noted with the venue as it was then. -/
structure Noted (V R : Type) where
  venue : V
  notes : List (V × OrderRequest R)

namespace Noted

/-- A venue before the first note. -/
def start [Venue V R] (v : V) : Noted V R := ⟨v, []⟩

variable [Venue V R]

instance : Venue (Noted V R) R where
  elapse n nanos :=
    let (more, v) := Venue.elapse n.venue nanos
    (more, { n with venue := v })
  bestBid n := Venue.bestBid n.venue
  bestAsk n := Venue.bestAsk n.venue
  tickSize n := Venue.tickSize n.venue
  lastTrades n := Venue.lastTrades n.venue
  clearTrades n := { n with venue := Venue.clearTrades n.venue }
  position n := Venue.position n.venue
  orders n := Venue.orders n.venue
  cancel n id :=
    let (accepted, v) := Venue.cancel n.venue id
    (accepted, { n with venue := v })
  submit n request :=
    let (answer, v) := Venue.submit n.venue request
    (answer, ⟨v, n.notes ++ [(n.venue, request)]⟩)
  clearInactive n := { n with venue := Venue.clearInactive n.venue }

/-- A venue does beside its notes what it does without. -/
theorem transparent : Venue.Transparent (venue : Noted V R → V) where
  tickSize _ := rfl
  position _ := rfl
  orders _ := rfl
  clearInactive _ := rfl
  cancel _ _ := rfl
  submit _ _ := rfl

private theorem notes_cancelAll (ids : List OrderId) (n : Noted V R) :
    (cancelAll ids n).venue.notes = n.notes :=
  cancelAll_invariant (P := fun m : Noted V R ↦ m.notes = n.notes) (fun _ _ same ↦ same) ids rfl

variable [Scalar R]

private theorem notes_placeSide (limits : OrderLimits R) (q : Quote R) (tick position : R)
    (side : Side) (n : Noted V R) :
    (limits.placeSide q tick position side n).venue.notes =
      n.notes ++ ((limits.missing? q tick position side n.venue).map (n.venue, ·)).toList := by
  have hsame : limits.missing? q tick position side n.venue =
      limits.missing? q tick position side n := rfl
  rw [hsame]
  cases hmissing : limits.missing? q tick position side n with
  | none =>
    rw [OrderLimits.placeSide_of_missing?_eq_none hmissing]
    simp
  | some request =>
    rw [OrderLimits.placeSide_of_missing?_eq_some hmissing]
    rfl

end Noted

/-! ### The turns of a pass -/

namespace OrderLimits

variable [Venue V R] [Scalar R] (limits : OrderLimits R) (q : Quote R) (v : V)

/-- The venue when it is the turn of a side. The ask has no turn when the bid failed. -/
def turn? : Side → Option V
  | .buy => some (cancels q v).venue
  | .sell => if (limits.bidPass q v).result.isOk then some (limits.bidPass q v).venue else none

/-- The request that a pass makes for a side, with the venue when it is made. -/
def asked? (side : Side) : Option (V × OrderRequest R) :=
  (limits.turn? q v side).bind fun w ↦
    (limits.missing? q (Venue.tickSize (Venue.clearInactive v))
      (Venue.position (cancels q v).venue) side w).map (w, ·)

/-- A pass makes the request for the bid and then the one for the ask, as far as they are made. -/
theorem notes_reconcile :
    (limits.reconcile q (Noted.start v)).venue.notes =
      [Side.buy, Side.sell].filterMap (limits.asked? q v) := by
  have hcancels : (cancels q (Noted.start v)).through Noted.venue = cancels q v :=
    Noted.transparent.through_cancelAll _ _
  have hnone : (cancels q (Noted.start v)).venue.notes = [] :=
    Noted.notes_cancelAll _ _
  have hbid : (limits.bidPass q (Noted.start v)).through Noted.venue = limits.bidPass q v := by
    unfold bidPass
    rw [Noted.transparent.through_placeSide, ← hcancels]
    rfl
  have hbids : (limits.bidPass q (Noted.start v)).venue.notes =
      (limits.asked? q v .buy).toList := by
    unfold bidPass
    rw [Noted.notes_placeSide, hnone, List.nil_append, asked?, turn?, Option.bind_some, ← hcancels]
    rfl
  have hresult : (limits.bidPass q v).result = (limits.bidPass q (Noted.start v)).result := by
    rw [← hbid]
    rfl
  have hsplit : [Side.buy, Side.sell].filterMap (limits.asked? q v) =
      (limits.asked? q v .buy).toList ++ (limits.asked? q v .sell).toList := by
    cases hb : limits.asked? q v .buy <;> cases hs : limits.asked? q v .sell <;> simp [hb, hs]
  rw [hsplit]
  cases hdone : (limits.bidPass q (Noted.start v)).result with
  | error e =>
    have hasks : limits.asked? q v .sell = none := by
      rw [asked?, turn?, hresult, hdone]
      rfl
    rw [reconcile_of_bid_error hdone, hbids, hasks]
    simp
  | ok placed =>
    have hasks : limits.asked? q v .sell =
        (limits.missing? q (Venue.tickSize (Venue.clearInactive v))
          (Venue.position (cancels q v).venue) .sell (limits.bidPass q v).venue).map
          ((limits.bidPass q v).venue, ·) := by
      rw [asked?, turn?, hresult, hdone]
      rfl
    rw [reconcile_of_bid_ok hdone, askPass, Noted.notes_placeSide, hbids, hasks, ← hbid, ← hcancels]
    rfl

variable {limits q v}

/-- A note is made at the turn of its side of the order that the side lacked. -/
theorem mem_notes_iff {w : V} {request : OrderRequest R} :
    (w, request) ∈ (limits.reconcile q (Noted.start v)).venue.notes ↔
      limits.turn? q v request.side = some w ∧
        limits.missing? q (Venue.tickSize (Venue.clearInactive v))
          (Venue.position (cancels q v).venue) request.side w = some request := by
  have hmem (side : Side) : limits.asked? q v side = some (w, request) ↔
      limits.turn? q v side = some w ∧
        limits.missing? q (Venue.tickSize (Venue.clearInactive v))
          (Venue.position (cancels q v).venue) side w = some request := by
    simp only [asked?, Option.bind_eq_some_iff, Option.map_eq_some_iff, Prod.mk.injEq]
    constructor
    · rintro ⟨_, hturn, _, hmissing, rfl, rfl⟩
      exact ⟨hturn, hmissing⟩
    · rintro ⟨hturn, hmissing⟩
      exact ⟨w, hturn, request, hmissing, rfl, rfl⟩
  rw [notes_reconcile, List.mem_filterMap]
  constructor
  · rintro ⟨side, -, hasked⟩
    obtain ⟨hturn, hmissing⟩ := (hmem side).mp hasked
    obtain ⟨price, -, -, rfl⟩ := wanted?_eq_some_iff.mp (missing?_eq_some_iff.mp hmissing).1
    exact ⟨hturn, hmissing⟩
  · intro asked
    refine ⟨request.side, ?_, (hmem _).mpr asked⟩
    cases request.side <;> simp

/-- An order is requested only while none is kept under its identifier. -/
theorem has_of_mem_notes {note : V × OrderRequest R}
    (mem : note ∈ (limits.reconcile q (Noted.start v)).venue.notes) :
    (Venue.orders note.1).has note.2.id = false :=
  (missing?_eq_some_iff.mp (mem_notes_iff.mp mem).2).2

end OrderLimits

/-! ### Resting at a level -/

section Doubling

variable [Venue V R] [Scalar R]

/-- An active order of a side rests at a price level, under whatever identifier it is kept. -/
def Venue.RestsAt (tick : R) (v : V) (side : Side) (level : OrderId) : Prop :=
  ∃ entry ∈ Venue.active v, entry.2.side = side ∧ OrderId.ofPrice entry.2.price tick = level

/-- At the turn of a side the active orders are kept under the levels of their prices if they were
before the pass. -/
theorem OrderLimits.keyed_of_turn? {Good : V → Prop} {tick : R}
    (orderly : Venue.Orderly Good tick) {limits : OrderLimits R} {q : Quote R} {v w : V}
    {side : Side} (good : Good v) (keyed : Venue.Keyed tick v)
    (turn : limits.turn? q v side = some w) : Venue.Keyed tick w := by
  have hcancels : Venue.Keyed tick (cancels q v).venue :=
    fun entry left ↦ keyed entry ((orderly.active_cancels q good).2.1 left)
  cases side with
  | buy =>
    obtain rfl := Option.some.inj turn
    exact hcancels
  | sell =>
    obtain ⟨-, hturn⟩ := Option.ite_none_right_eq_some.mp turn
    obtain rfl := Option.some.inj hturn
    intro entry left
    rcases (orderly.active_bidPass limits q good).2 entry left with hold | ⟨price, -, -, rfl⟩
    · exact hcancels entry hold
    · exact ⟨rfl, rfl, rfl⟩

/-- While the active orders are kept under the levels of their prices, a pass quotes no level a
second time. -/
theorem OrderLimits.not_quoted_twice_of_keyed {Good : V → Prop} {tick : R}
    (orderly : Venue.Orderly Good tick) {limits : OrderLimits R} {q : Quote R} {v : V}
    (good : Good v) (keyed : Venue.Keyed tick v) {note : V × OrderRequest R}
    (mem : note ∈ (limits.reconcile q (Noted.start v)).venue.notes) :
    ¬ Venue.RestsAt tick note.1 note.2.side (OrderId.ofPrice note.2.price tick) := by
  obtain ⟨w, request⟩ := note
  obtain ⟨hturn, hmissing⟩ := mem_notes_iff.mp mem
  have hid : request.id = OrderId.ofPrice request.price tick := by
    obtain ⟨price, -, -, hrequest⟩ := wanted?_eq_some_iff.mp (missing?_eq_some_iff.mp hmissing).1
    rw [orderly.tickSize (orderly.good_clearInactive good)] at hrequest
    rw [← hrequest]
    rfl
  rintro ⟨entry, hactive, -, hlevel⟩
  -- an order that rests at the level is kept under it, so that the level is not free
  apply Bool.eq_false_iff.mp (has_of_mem_notes mem)
  apply List.any_eq_true.mpr
  refine ⟨entry, (OrderTable.mem_activeOnly.mp hactive).1, decide_eq_true ?_⟩
  obtain ⟨-, -, hkeyed⟩ := keyed_of_turn? orderly good keyed hturn entry hactive
  exact hkeyed.symm.trans (hlevel.trans hid.symm)

/-- A pass quotes a level at which an active order of the side rests already exactly when, at the
turn of the side, the limits admit its quote and all orders at the level are kept under other
identifiers. -/
theorem OrderLimits.quoted_twice_iff (limits : OrderLimits R) (q : Quote R) (v : V) (side : Side) :
    let tick := Venue.tickSize (Venue.clearInactive v)
    let pass := limits.reconcile q (Noted.start v)
    pass.through Noted.venue = limits.reconcile q v ∧
      ((∃ note ∈ pass.venue.notes, note.2.side = side ∧
          Venue.RestsAt tick note.1 side (OrderId.ofPrice note.2.price tick)) ↔
        ∃ w price, limits.turn? q v side = some w ∧ q.on side = some price ∧
          limits.admits (Venue.position (cancels q v).venue) side = true ∧
          Venue.RestsAt tick w side (OrderId.ofPrice price tick) ∧
          ∀ entry ∈ Venue.orders w, entry.1 ≠ OrderId.ofPrice price tick) := by
  intro tick pass
  refine ⟨Noted.transparent.through_reconcile limits q _, ?_⟩
  have hfree (w : V) (id : OrderId) :
      (Venue.orders w).has id = false ↔ ∀ entry ∈ Venue.orders w, entry.1 ≠ id := by
    simp [OrderTable.has]
  constructor
  · rintro ⟨⟨w, request⟩, hmem, rfl, hrests⟩
    obtain ⟨hturn, hmissing⟩ := mem_notes_iff.mp hmem
    obtain ⟨hwanted, hnone⟩ := missing?_eq_some_iff.mp hmissing
    obtain ⟨price, hquoted, hadmitted, hrequest⟩ := wanted?_eq_some_iff.mp hwanted
    have hprice : request.price = price := by rw [← hrequest]; rfl
    have hid : request.id = OrderId.ofPrice price tick := by rw [← hrequest]; rfl
    rw [hprice] at hrests
    rw [hid] at hnone
    exact ⟨w, price, hturn, hquoted, hadmitted, hrests, (hfree w _).mp hnone⟩
  · rintro ⟨w, price, hturn, hquoted, hadmitted, hrests, hnone⟩
    refine ⟨(w, limits.request side price tick), ?_, rfl, hrests⟩
    have hwanted : limits.wanted? q tick (Venue.position (cancels q v).venue) side =
        some (limits.request side price tick) :=
      wanted?_eq_some_iff.mpr ⟨price, hquoted, hadmitted, rfl⟩
    exact mem_notes_iff.mpr ⟨hturn, missing?_eq_some_iff.mpr ⟨hwanted, (hfree w _).mpr hnone⟩⟩

/-- When the price of a tick is halved between two passes with the same quote, the second quotes
both levels again beside the orders of the first. -/
theorem OrderLimits.quoted_twice_of_finer_tick :
    let limits : OrderLimits Float := ⟨5, 1⟩
    let q : Quote Float := ⟨1.5, 0, 99, 102⟩
    let first := limits.reconcile q (ReplayVenue.idle 100 101 1)
    let venue : ReplayVenue Float := { first.venue with tickSize := 0.5 }
    ∀ side, ∃ note ∈ (limits.reconcile q (Noted.start venue)).venue.notes, note.2.side = side ∧
      Venue.RestsAt 0.5 note.1 side (OrderId.ofPrice note.2.price 0.5) := by
  intro limits q first venue side
  unfold Venue.RestsAt
  cases side <;> decide +kernel

end Doubling

end MarketMaking
