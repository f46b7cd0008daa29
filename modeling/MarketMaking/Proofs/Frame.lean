import MarketMaking.Proofs.Doubling
import MarketMaking.Proofs.Honest
import MarketMaking.Proofs.Requests

/-!
# What a pass leaves alone

At an honest venue, whatever it refuses and wherever the pass ends: of the active orders a pass
takes away only those whose cancellation was accepted, it asks for the cancellation of stale orders
only, and it enters the orders that were accepted and no others, each at a level that was free.
-/

namespace MarketMaking

variable {R V : Type}

namespace Event

/-- The order that this event entered, if it is an accepted request. -/
def placed? : Event R → Option (OrderRequest R)
  | orderRequested request none => some request
  | _ => none

/-- The accepted requests among some events, in their order. -/
def placed (events : List (Event R)) : List (OrderRequest R) := events.filterMap placed?

@[simp] theorem placed_append (xs ys : List (Event R)) :
    placed (xs ++ ys) = placed xs ++ placed ys := List.filterMap_append

/-- An order was entered by an event that is its accepted request. -/
theorem placed?_eq_some_iff {event : Event R} {request : OrderRequest R} :
    event.placed? = some request ↔ event = .orderRequested request none := by
  rcases event with _ | _ | _ | _ | _ | _ | _ | ⟨_, _ | _⟩ | _ <;> simp [placed?]

private theorem placed_sublist_requests (events : List (Event R)) :
    (placed events).Sublist (requests events) := by
  induction events with
  | nil => exact List.Sublist.refl _
  | cons event events ih =>
    cases hplaced : event.placed? with
    | none =>
      rw [placed, List.filterMap_cons_none hplaced]
      exact ih.trans (List.Sublist.filterMap _ (List.sublist_cons_self event events))
    | some request =>
      obtain rfl := placed?_eq_some_iff.mp hplaced
      exact ih.cons_cons request

end Event

open Event (placed requests)

variable [Venue V R]

namespace Venue

/-- Between `v` and `w` orders were entered, each under an identifier that was free, and nothing
else happened to the orders. -/
structure Enters (v w : V) (entered : List (OrderRequest R)) : Prop where
  free {request : OrderRequest R} : request ∈ entered → kept v request.id = none
  kept {request : OrderRequest R} : request ∈ entered →
    kept w request.id = some request.accepted
  others {id : OrderId} : id ∉ entered.map OrderRequest.id → Venue.kept w id = Venue.kept v id
  nodup : (entered.map OrderRequest.id).Nodup

namespace Enters

variable {u v w : V} {xs ys : List (OrderRequest R)}

private theorem of_kept_eq (same : ∀ id, Venue.kept w id = Venue.kept v id) : Enters v w [] where
  free mem := by cases mem
  kept mem := by cases mem
  others _ := same _
  nodup := List.nodup_nil

/-- An identifier is taken once an order was entered under it. -/
theorem disjoint (first : Enters u v xs) (second : Enters v w ys) {request : OrderRequest R}
    (mem : request ∈ xs) : request.id ∉ ys.map OrderRequest.id := by
  intro hmem
  obtain ⟨other, hother, hid⟩ := List.mem_map.mp hmem
  have hfree := second.free hother
  rw [hid, first.kept mem] at hfree
  cases hfree

/-- Entering orders leaves those that were there. -/
theorem kept_of_kept (enters : Enters v w xs) {id : OrderId} {order : RestingOrder R}
    (found : Venue.kept v id = some order) : Venue.kept w id = some order := by
  rw [enters.others, found]
  intro mem
  obtain ⟨request, hrequest, rfl⟩ := List.mem_map.mp mem
  rw [enters.free hrequest] at found
  cases found

/-- Every order was there before or was entered. -/
theorem kept_cases (enters : Enters v w xs) {id : OrderId} {order : RestingOrder R}
    (found : Venue.kept w id = some order) :
    Venue.kept v id = some order ∨ ∃ request ∈ xs, request.id = id ∧ request.accepted = order := by
  by_cases entered : id ∈ xs.map OrderRequest.id
  · obtain ⟨request, hrequest, rfl⟩ := List.mem_map.mp entered
    rw [enters.kept hrequest] at found
    exact .inr ⟨request, hrequest, rfl, Option.some.inj found⟩
  · rw [enters.others entered] at found
    exact .inl found

/-- What is entered later comes behind what was entered before. -/
theorem trans (first : Enters u v xs) (second : Enters v w ys) : Enters u w (xs ++ ys) where
  free {request} mem := by
    rcases List.mem_append.mp mem with hx | hy
    · exact first.free hx
    · rw [← first.others]
      · exact second.free hy
      · intro hmem
        obtain ⟨other, hother, hid⟩ := List.mem_map.mp hmem
        apply first.disjoint second hother
        rw [hid]
        exact List.mem_map_of_mem hy
  kept {request} mem := by
    rcases List.mem_append.mp mem with hx | hy
    · rw [second.others (first.disjoint second hx)]
      exact first.kept hx
    · exact second.kept hy
  others {id} other := by
    rw [List.map_append, List.mem_append, not_or] at other
    rw [second.others other.2, first.others other.1]
  nodup := by
    rw [List.map_append, List.nodup_append]
    refine ⟨first.nodup, second.nodup, ?_⟩
    intro id hx other hy heq
    obtain ⟨request, hrequest, rfl⟩ := List.mem_map.mp hx
    apply first.disjoint second hrequest
    rwa [heq]

end Enters

end Venue

/-! ### Cancelling -/

private theorem mem_of_cancelRequested {ids : List OrderId} {v : V} {id : OrderId} {accepted : Bool}
    (mem : Event.cancelRequested id accepted ∈ (cancelAll ids v).events) : id ∈ ids := by
  obtain ⟨other, hmem, _, hevent⟩ := exists_of_mem_cancelAll mem
  obtain ⟨rfl, -⟩ := Event.cancelRequested.inj hevent
  exact hmem

private theorem placed_cancelAll (ids : List OrderId) (v : V) : placed (cancelAll ids v).events =
    [] :=
  filterMap_cancelAll (fun _ _ ↦ rfl) ids v

/-- Placing the quote of a side enters the order that was accepted, if one was. -/
theorem Venue.TakesOrders.enters_placeSide [Scalar R] {Good : V → Prop} {v : V}
    (takes : TakesOrders Good) (limits : OrderLimits R) (q : Quote R) (tick position : R)
    (side : Side) (good : Good v) :
    Enters v (limits.placeSide q tick position side v).venue
      (placed (limits.placeSide q tick position side v).events) := by
  cases hmissing : limits.missing? q tick position side v with
  | none =>
    rw [OrderLimits.placeSide_of_missing?_eq_none hmissing]
    exact .of_kept_eq fun _ ↦ rfl
  | some request =>
    rw [OrderLimits.placeSide_of_missing?_eq_some hmissing]
    cases hanswer : (submit v request).1 with
    | error e => exact .of_kept_eq fun id ↦ takes.kept_submit_of_refused id good hanswer
    | ok =>
      have hkept := fun id ↦ takes.kept_submit_of_accepted id good hanswer
      exact {
        free := by
          intro other mem
          obtain rfl := List.mem_singleton.mp mem
          exact has_eq_false_iff.mp (OrderLimits.missing?_eq_some_iff.mp hmissing).2
        kept := by
          intro other mem
          obtain rfl := List.mem_singleton.mp mem
          rw [hkept, if_pos rfl]
        others := by
          intro id other
          rw [hkept, if_neg]
          simpa [placed, Event.placed?, OrderLimits.refusal?, eq_comm] using other
        nodup := List.pairwise_singleton _ _ }

namespace Venue.Honest

variable {Good : V → Prop} {v : V}

/-- Of the orders whose cancellation was requested, those stay as they are of which none was
accepted. The others are removed or kept as cancelled ones. -/
theorem kept_cancelAll (honest : Honest Good) (ids : List OrderId) (id : OrderId) (good : Good v) :
    (.cancelRequested id true ∉ (cancelAll ids v).events →
      kept (cancelAll ids v).venue id = kept v id) ∧
    (kept (cancelAll ids v).venue id = kept v id ∨ kept (cancelAll ids v).venue id = none ∨
      kept (cancelAll ids v).venue id = (kept v id).map RestingOrder.cancelled) := by
  induction ids generalizing v with
  | nil => exact ⟨fun _ ↦ rfl, .inl rfl⟩
  | cons head ids ih =>
    obtain ⟨hrefused, hall⟩ := ih (honest.good_cancel head good)
    show (_ ∉ .cancelRequested head (cancel v head).1 ::
        (cancelAll ids (cancel v head).2).events → kept (cancelAll ids (cancel v head).2).venue id =
          kept v id) ∧ (kept (cancelAll ids (cancel v head).2).venue id = kept v id ∨
        kept (cancelAll ids (cancel v head).2).venue id = none ∨
        kept (cancelAll ids (cancel v head).2).venue id = (kept v id).map RestingOrder.cancelled)
    rw [List.mem_cons, not_or]
    by_cases same : head = id ∧ (cancel v head).1 = true
    · obtain ⟨rfl, haccepted⟩ := same
      rw [haccepted]
      refine ⟨fun absent ↦ absurd rfl absent.1, .inr ?_⟩
      -- a cancelled order may be cancelled again, and is then what it is already
      rcases honest.kept_cancel_of_accepted good haccepted with hgone | hmarked
      · rcases hall with h | h | h <;> simp [h, hgone]
      · rcases hall with h | h | h
        · exact .inr (h.trans hmarked)
        · exact .inl h
        · right
          rw [h, hmarked, Option.map_map]
          rfl
    · have hhead : kept (cancel v head).2 id = kept v id := by
        by_cases heq : head = id
        · subst heq
          apply honest.kept_cancel_of_refused good
          simpa using same
        · exact honest.kept_cancel_of_ne good heq
      rw [← hhead]
      exact ⟨fun absent ↦ hrefused absent.2, hall⟩

end Venue.Honest

namespace OrderLimits

variable [Scalar R] {Good : V → Prop} {limits : OrderLimits R} {q : Quote R} {v : V}

private theorem cancelRequested_not_mem_placeSide {tick position : R} {side : Side} {id : OrderId}
    {accepted : Bool} :
    .cancelRequested id accepted ∉ (limits.placeSide q tick position side v).events := by
  cases hmissing : limits.missing? q tick position side v with
  | none => simp [placeSide_of_missing?_eq_none hmissing]
  | some request => simp [placeSide_of_missing?_eq_some hmissing]

/-- All cancellations of a pass are requested before it comes to its quotes. -/
theorem cancelRequested_mem_reconcile_iff {id : OrderId} {accepted : Bool} :
    .cancelRequested id accepted ∈ (limits.reconcile q v).events ↔
      .cancelRequested id accepted ∈ (cancels q v).events := by
  have hbid : .cancelRequested id accepted ∉ (limits.bidPass q v).events :=
    cancelRequested_not_mem_placeSide
  have hask : .cancelRequested id accepted ∉ (limits.askPass q v).events :=
    cancelRequested_not_mem_placeSide
  cases hresult : (limits.bidPass q v).result with
  | error e => simp [reconcile_of_bid_error hresult, hbid]
  | ok placed => simp [reconcile_of_bid_ok hresult, hbid, hask]

/-- Once the stale orders are cancelled a pass does nothing to the orders but enter those that are
accepted. -/
theorem enters_reconcile (limits : OrderLimits R) (q : Quote R) (honest : Venue.Honest Good)
    (good : Good v) :
    Venue.Enters (cancels q v).venue (limits.reconcile q v).venue
      (placed (limits.reconcile q v).events) := by
  have hcancels : placed (cancels q v).events = [] := placed_cancelAll _ _
  have hgood : Good (cancels q v).venue :=
    honest.good_cancelAll _ (honest.good_clearInactive good)
  have hbid : Venue.Enters (cancels q v).venue (limits.bidPass q v).venue
      (placed (limits.bidPass q v).events) := honest.enters_placeSide limits q _ _ .buy hgood
  have hask : Venue.Enters (limits.bidPass q v).venue (limits.askPass q v).venue
      (placed (limits.askPass q v).events) :=
    honest.enters_placeSide limits q _ _ .sell (honest.good_placeSide limits q _ _ .buy hgood)
  cases hresult : (limits.bidPass q v).result with
  | error e =>
    rw [reconcile_of_bid_error hresult, Event.placed_append, hcancels]
    exact hbid
  | ok done =>
    rw [reconcile_of_bid_ok hresult, Event.placed_append, Event.placed_append, hcancels]
    exact hbid.trans hask

/-! ### What a pass touches -/

/-- What a pass may touch of the orders of a venue. -/
structure TouchesOnly (limits : OrderLimits R) (q : Quote R) (v : V) : Prop where
  /-- An active order is as it was unless its cancellation was accepted. -/
  stays {id : OrderId} {order : RestingOrder R} : Venue.kept v id = some order →
    order.isActive = true → .cancelRequested id true ∉ (limits.reconcile q v).events →
      Venue.kept (limits.reconcile q v).venue id = some order
  /-- An order is requested while there is none under its identifier. -/
  free {w : V} {request : OrderRequest R} :
    (w, request) ∈ (limits.reconcile q (Noted.start v)).venue.notes →
      Venue.kept w request.id = none
  /-- A cancellation, accepted or not, is requested of orders that can be cancelled and that do not
  rest at the quote of their side. -/
  stale {id : OrderId} {accepted : Bool} :
    .cancelRequested id accepted ∈ (limits.reconcile q v).events →
      ∃ order, Venue.kept v id = some order ∧ order.cancellable = true ∧
        q.level? (Venue.tickSize (Venue.clearInactive v)) order.side ≠
          some (OrderId.ofPrice order.price (Venue.tickSize (Venue.clearInactive v)))
  /-- An accepted request enters its order. -/
  entered {request : OrderRequest R} : request ∈ placed (limits.reconcile q v).events →
    Venue.kept (limits.reconcile q v).venue request.id = some request.accepted
  /-- Every order was there before, though it may be cancelled by now, or was entered by an accepted
  request. -/
  found {id : OrderId} {order : RestingOrder R} :
    Venue.kept (limits.reconcile q v).venue id = some order →
      Venue.kept v id = some order ∨
      (.cancelRequested id true ∈ (limits.reconcile q v).events ∧
        ∃ before, Venue.kept v id = some before ∧ before.cancelled = order) ∨
      ∃ request ∈ placed (limits.reconcile q v).events,
        request.id = id ∧ request.accepted = order
  oneASide : ((placed (limits.reconcile q v).events).map OrderRequest.side).Nodup
  oneAnIdentifier : ((placed (limits.reconcile q v).events).map OrderRequest.id).Nodup

/-- A stale order is one of the venue that can be cancelled and does not rest at the quote of its
side. -/
theorem exists_of_mem_staleIds {tick : R} {t : OrderTable R} {id : OrderId}
    (own : ∀ entry ∈ t, entry.2.id = entry.1) (mem : id ∈ q.staleIds tick t) :
    ∃ order, (id, order) ∈ t ∧ order.cancellable = true ∧
      q.level? tick order.side ≠ some (OrderId.ofPrice order.price tick) := by
  rw [q.staleIds_eq tick own] at mem
  obtain ⟨⟨_, order⟩, hmem, rfl⟩ := List.mem_map.mp mem
  obtain ⟨hkept, hstale⟩ := List.mem_filter.mp hmem
  simp only [Quote.isStale, Bool.and_eq_true, bne_iff_ne] at hstale
  exact ⟨order, hkept, hstale⟩

/-- A pass at an honest venue that keeps orders under their own identifiers, completed or not,
touches no order but those that it may touch. -/
theorem touchesOnly (limits : OrderLimits R) (q : Quote R) (honest : Venue.Honest Good)
    (good : Good v) (own : ∀ entry ∈ Venue.orders v, entry.2.id = entry.1) :
    limits.TouchesOnly q v := by
  have hgood := honest.good_clearInactive good
  have henters := limits.enters_reconcile q honest good
  have hcancels (id : OrderId) := honest.kept_cancelAll
    (q.staleIds (Venue.tickSize (Venue.clearInactive v)) (Venue.orders (Venue.clearInactive v)))
    id hgood
  exact {
    stays := by
      intro id order hkept hactive huncancelled
      rw [cancelRequested_mem_reconcile_iff] at huncancelled
      have hleft : Venue.kept (cancels q v).venue id = some order := by
        rw [cancels, (hcancels id).1 huncancelled]
        exact honest.kept_clearInactive_of_active good hkept hactive
      exact henters.kept_of_kept hleft
    free := fun mem ↦ Venue.has_eq_false_iff.mp (has_of_mem_notes mem)
    stale := by
      intro id accepted mem
      rw [cancelRequested_mem_reconcile_iff] at mem
      have hown : ∀ entry ∈ Venue.orders (Venue.clearInactive v), entry.2.id = entry.1 := by
        rintro ⟨id, order⟩ hmem
        have hfound := honest.kept_of_clearInactive good ((honest.mem_orders hgood).mp hmem)
        exact own _ ((honest.mem_orders good).mpr hfound)
      obtain ⟨order, hmem, hstale⟩ := exists_of_mem_staleIds hown (mem_of_cancelRequested mem)
      exact ⟨order, honest.kept_of_clearInactive good ((honest.mem_orders hgood).mp hmem), hstale⟩
    entered := fun mem ↦ henters.kept mem
    found := by
      intro id order hfound
      rcases henters.kept_cases hfound with hleft | hentered
      · rw [cancels] at hleft
        rw [cancelRequested_mem_reconcile_iff]
        by_cases hcancelled : .cancelRequested id true ∈ (cancels q v).events
        · rcases (hcancels id).2 with hsame | hgone | hmarked
          · rw [hsame] at hleft
            exact .inl (honest.kept_of_clearInactive good hleft)
          · rw [hgone] at hleft
            cases hleft
          · rw [hmarked] at hleft
            obtain ⟨before, hbefore, hmark⟩ := Option.map_eq_some_iff.mp hleft
            exact .inr (.inl ⟨hcancelled, before, honest.kept_of_clearInactive good hbefore, hmark⟩)
        · rw [(hcancels id).1 hcancelled] at hleft
          exact .inl (honest.kept_of_clearInactive good hleft)
      · exact .inr (.inr hentered)
    oneASide := by
      have hsides := (limits.requests_reconcile_sides q v)
      have hplaced := (Event.placed_sublist_requests (limits.reconcile q v).events).map
        OrderRequest.side
      exact (hplaced.trans hsides).nodup (by decide)
    oneAnIdentifier := henters.nodup }

/-- A pass that fails with its ask, among an order to cancel, one that cannot be cancelled, one that
someone else keeps at the ask, and one that was cancelled before. -/
theorem touchesOnly_failing :
    let orders : OrderTable Float :=
      [(⟨98⟩, ⟨⟨98⟩, .buy, 98, 1, .active, true⟩), (⟨50⟩, ⟨⟨50⟩, .buy, 50, 1, .active, false⟩),
        (⟨7⟩, ⟨⟨7⟩, .sell, 102, 1, .active, true⟩), (⟨60⟩, ⟨⟨60⟩, .sell, 60, 1, .cancelled, true⟩)]
    let venue : ScriptedVenue Float :=
      { ScriptedVenue.idle 1 with orders, failing := [(⟨102⟩, .io "connection lost")] }
    let q : Quote Float := ⟨1.5, 0, 99, 102⟩
    let limits : OrderLimits Float := ⟨5, 1⟩
    let pass := limits.reconcile q venue
    pass.result.isOk = false ∧ (placed pass.events).map OrderRequest.id = [⟨99⟩] ∧
      (Venue.orders pass.venue).map Prod.fst = [⟨98⟩, ⟨50⟩, ⟨7⟩, ⟨99⟩] ∧
      limits.TouchesOnly q venue := by
  intro orders venue q limits pass
  have hdistinct : (venue.orders.map Prod.fst).Nodup := by decide
  have hown : ∀ entry ∈ venue.orders, entry.2.id = entry.1 := by decide
  refine ⟨?_, ?_, ?_, limits.touchesOnly q ScriptedVenue.honest hdistinct hown⟩
  · decide +kernel
  · decide +kernel
  · decide +kernel

end OrderLimits

end MarketMaking
