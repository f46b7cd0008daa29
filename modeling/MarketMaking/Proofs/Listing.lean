import MarketMaking.Proofs.Frame

/-!
# Orders listed in another way

A venue is free to list its orders in any way, and in another way each time. Where a cancellation is
a matter of its own order alone, the cancellations of a pass do not meet, and each comes to the same
wherever it stands among them. What follows looks up what is kept under a level and nothing else. So
all that a pass leaves to the listing is which cancellation it requests first.
-/

namespace MarketMaking

open Event (requests)

variable {R V S : Type} [Venue V R]

namespace Event

/-- The cancellation that this event is, and whether it was accepted, if it is one. -/
def cancellation? : Event R → Option (OrderId × Bool)
  | cancelRequested id accepted => some (id, accepted)
  | _ => none

/-- The cancellations requested among some events, in their order and with their answers. -/
def cancellations (events : List (Event R)) : List (OrderId × Bool) :=
  events.filterMap cancellation?

@[simp] theorem cancellations_append (xs ys : List (Event R)) :
    cancellations (xs ++ ys) = cancellations xs ++ cancellations ys := List.filterMap_append

private theorem result_cancelAll_eq (ids : List OrderId) (v : V) :
    (cancelAll ids v).result = (cancellations (cancelAll ids v).events).countP Prod.snd := by
  rw [result_cancelAll, cancellations, List.countP_filterMap]
  congr 1
  funext event
  cases event <;> rfl

end Event

open Event (cancellations)

namespace Venue

/-- Two states that keep the same orders, in whatever way they list them, and that do not differ in
the rest. -/
structure Alike (rest : V → S) (v w : V) : Prop where
  rest : rest v = rest w
  orders : (Venue.orders v).Perm (Venue.orders w)

/-- A venue that goes by what it keeps and by the rest of its state, but not by how its orders are
listed, and that cancels orders one by one. -/
structure Itemwise (Good : V → Prop) (rest : V → S) : Prop extends Stable Good where
  tickSize {v w : V} : Alike rest v w → Venue.tickSize v = Venue.tickSize w
  position {v w : V} : Alike rest v w → Venue.position v = Venue.position w
  clearInactive {v w : V} : Good v → Good w → Alike rest v w →
    Alike rest (Venue.clearInactive v) (Venue.clearInactive w)
  /-- Dropping inactive orders brings and changes none. -/
  kept_of_clearInactive {v : V} {id : OrderId} {order : RestingOrder R} : Good v →
    kept (Venue.clearInactive v) id = some order → kept v id = some order
  submit {v w : V} (request : OrderRequest R) : Good v → Good w → Alike rest v w →
    (Venue.submit v request).1 = (Venue.submit w request).1 ∧
      Alike rest (Venue.submit v request).2 (Venue.submit w request).2
  rest_cancel {v : V} (id : OrderId) : Good v → rest (Venue.cancel v id).2 = rest v
  kept_cancel_of_ne {v : V} {id other : OrderId} : Good v → id ≠ other →
    kept (Venue.cancel v id).2 other = kept v other
  /-- What a cancellation comes to depends on its own order only. -/
  cancel {v w : V} {id : OrderId} : Good v → Good w → rest v = rest w → kept v id = kept w id →
    (Venue.cancel v id).1 = (Venue.cancel w id).1 ∧
      kept (Venue.cancel v id).2 id = kept (Venue.cancel w id).2 id

private theorem Stable.nodup_orders {Good : V → Prop} (stable : Stable Good) {v : V}
    (good : Good v) : (orders v).Nodup :=
  List.Pairwise.of_map Prod.fst (fun _ _ ne heq ↦ ne (congrArg Prod.fst heq))
    (stable.distinct good)

private theorem Stable.perm_orders_iff {Good : V → Prop} (stable : Stable Good) {v w : V}
    (good : Good v)
    (good' : Good w) : (orders v).Perm (orders w) ↔ ∀ id, kept v id = kept w id := by
  constructor
  · intro perm id
    apply Option.ext
    intro order
    rw [← stable.mem_orders good, ← stable.mem_orders good', perm.mem_iff]
  · intro same
    apply (List.perm_ext_iff_of_nodup (stable.nodup_orders good) (stable.nodup_orders good')).mpr
    rintro ⟨id, order⟩
    rw [stable.mem_orders good, stable.mem_orders good', same]

end Venue

/-- Two activities that come to the same, though the one may list and cancel the orders in another
order than the other. -/
structure Activity.Agrees {α : Type} (rest : V → S) (a b : Activity R V α) : Prop where
  result : a.result = b.result
  venue : Venue.Alike rest a.venue b.venue
  requests : requests a.events = requests b.events
  cancellations : (cancellations a.events).Perm (cancellations b.events)

private theorem Activity.Agrees.followed {α β γ : Type} {rest : V → S} {a b : Activity R V α}
    {c d : Activity R V β} (first : a.Agrees rest b) (second : c.Agrees rest d) {x y : γ}
    (result : x = y) :
    Activity.Agrees rest ⟨x, c.venue, a.events ++ c.events⟩ ⟨y, d.venue, b.events ++ d.events⟩ where
  result := result
  venue := second.venue
  requests := by
    rw [Event.requests_append, Event.requests_append, first.requests, second.requests]
  cancellations := by
    rw [Event.cancellations_append, Event.cancellations_append]
    exact first.cancellations.append second.cancellations

namespace Venue.Itemwise

variable {Good : V → Prop} {rest : V → S} {v w : V}

/-! ### Cancelling -/

private theorem cancel_after (itemwise : Itemwise Good rest) (good : Good v) {id other : OrderId}
    (ne : id ≠ other) :
    (Venue.cancel (Venue.cancel v id).2 other).1 = (Venue.cancel v other).1 ∧
      kept (Venue.cancel (Venue.cancel v id).2 other).2 other =
        kept (Venue.cancel v other).2 other :=
  itemwise.cancel (itemwise.good_cancel id good) good (itemwise.rest_cancel id good)
    (itemwise.kept_cancel_of_ne good ne)

private theorem rest_cancelAll (itemwise : Itemwise Good rest) (ids : List OrderId)
    (good : Good v) : rest (cancelAll ids v).venue = rest v := by
  apply (cancelAll_invariant (P := fun w ↦ Good w ∧ rest w = rest v) _ ids _).2
  · rintro w id ⟨hgood, same⟩
    exact ⟨itemwise.good_cancel id hgood, (itemwise.rest_cancel id hgood).trans same⟩
  · exact ⟨good, rfl⟩

private theorem cancellations_cancelAll (itemwise : Itemwise Good rest) {ids : List OrderId}
    (nodup : ids.Nodup) (good : Good v) :
    cancellations (cancelAll ids v).events = ids.map fun id ↦ (id, (Venue.cancel v id).1) := by
  induction ids generalizing v with
  | nil => rfl
  | cons head ids ih =>
    obtain ⟨hhead, hnodup⟩ := List.nodup_cons.mp nodup
    show (head, (Venue.cancel v head).1) ::
      cancellations (cancelAll ids (Venue.cancel v head).2).events = _
    rw [ih hnodup (itemwise.good_cancel head good), List.map_cons]
    congr 1
    apply List.map_congr_left
    intro id mem
    have hne : head ≠ id := fun heq ↦ hhead (heq ▸ mem)
    rw [(itemwise.cancel_after good hne).1]

/-- Cancellations of different orders leave of each what its own one leaves. -/
theorem kept_cancelAll (itemwise : Itemwise Good rest) {ids : List OrderId} (nodup : ids.Nodup)
    (good : Good v) (id : OrderId) :
    kept (cancelAll ids v).venue id =
      if id ∈ ids then kept (Venue.cancel v id).2 id else kept v id := by
  induction ids generalizing v with
  | nil => rfl
  | cons head ids ih =>
    obtain ⟨hhead, hnodup⟩ := List.nodup_cons.mp nodup
    show kept (cancelAll ids (Venue.cancel v head).2).venue id = _
    rw [ih hnodup (itemwise.good_cancel head good)]
    by_cases heq : head = id
    · subst heq
      rw [if_neg hhead, if_pos List.mem_cons_self]
    · rw [(itemwise.cancel_after good heq).2, itemwise.kept_cancel_of_ne good heq]
      simp [Ne.symm heq]

/-- Different orders may be cancelled in any order. -/
theorem agrees_cancelAll (itemwise : Itemwise Good rest) (good : Good v) (good' : Good w)
    (alike : Alike rest v w) {ids ids' : List OrderId} (nodup : ids.Nodup) (perm : ids.Perm ids') :
    (cancelAll ids v).Agrees rest (cancelAll ids' w) := by
  have hnodup : ids'.Nodup := perm.nodup_iff.mp nodup
  have hcancel (id : OrderId) := itemwise.cancel good good' alike.rest
    ((itemwise.perm_orders_iff good good').mp alike.orders id)
  have hcancellations : (cancellations (cancelAll ids v).events).Perm
      (cancellations (cancelAll ids' w).events) := by
    rw [itemwise.cancellations_cancelAll nodup good, itemwise.cancellations_cancelAll hnodup good']
    simp only [(hcancel _).1]
    exact perm.map _
  exact {
    result := by
      rw [Event.result_cancelAll_eq, Event.result_cancelAll_eq]
      exact hcancellations.countP_eq _
    venue.rest := by
      rw [itemwise.rest_cancelAll ids good, itemwise.rest_cancelAll ids' good', alike.rest]
    venue.orders := by
      rw [itemwise.perm_orders_iff (itemwise.good_cancelAll ids good)
        (itemwise.good_cancelAll ids' good')]
      intro id
      rw [itemwise.kept_cancelAll nodup good, itemwise.kept_cancelAll hnodup good', (hcancel id).2,
        (itemwise.perm_orders_iff good good').mp alike.orders id]
      simp only [perm.mem_iff]
    requests := by rw [Event.requests_cancelAll, Event.requests_cancelAll]
    cancellations := hcancellations }

/-! ### Placing -/

variable [Scalar R]

/-- Placing the quote of a side looks up one level, and goes by the answer to its request. -/
theorem agrees_placeSide (itemwise : Itemwise Good rest) (limits : OrderLimits R) (q : Quote R)
    (tick position : R) (side : Side) (good : Good v) (good' : Good w) (alike : Alike rest v w) :
    (limits.placeSide q tick position side v).Agrees rest
      (limits.placeSide q tick position side w) := by
  have hmissing : limits.missing? q tick position side v = limits.missing? q tick position side w :=
    missing?_congr ((itemwise.perm_orders_iff good good').mp alike.orders)
  cases hlacking : limits.missing? q tick position side v with
  | none =>
    rw [OrderLimits.placeSide_of_missing?_eq_none hlacking,
      OrderLimits.placeSide_of_missing?_eq_none (hmissing.symm.trans hlacking)]
    exact ⟨rfl, alike, rfl, .refl _⟩
  | some request =>
    obtain ⟨hanswer, halike⟩ := itemwise.submit request good good' alike
    rw [OrderLimits.placeSide_of_missing?_eq_some hlacking,
      OrderLimits.placeSide_of_missing?_eq_some (hmissing.symm.trans hlacking), hanswer]
    exact ⟨rfl, halike, rfl, .refl _⟩

/-! ### Passes -/

/-- The stale orders are cancelled to the same effect, however the orders are listed. -/
theorem agrees_cancels (itemwise : Itemwise Good rest) (q : Quote R) (good : Good v)
    (good' : Good w) (alike : Alike rest v w)
    (own : ∀ entry ∈ Venue.orders v, entry.2.id = entry.1) :
    (OrderLimits.cancels q v).Agrees rest (OrderLimits.cancels q w) := by
  have halike := itemwise.clearInactive good good' alike
  have hgood := itemwise.good_clearInactive good
  have hown : ∀ entry ∈ Venue.orders (Venue.clearInactive v), entry.2.id = entry.1 := by
    rintro ⟨id, order⟩ mem
    have hfound := itemwise.kept_of_clearInactive good ((itemwise.mem_orders hgood).mp mem)
    exact own _ ((itemwise.mem_orders good).mpr hfound)
  have hperm : (q.staleIds (Venue.tickSize (Venue.clearInactive v))
      (Venue.orders (Venue.clearInactive v))).Perm
      (q.staleIds (Venue.tickSize (Venue.clearInactive w))
        (Venue.orders (Venue.clearInactive w))) := by
    rw [itemwise.tickSize halike]
    exact ((halike.orders.map _).filter _).map _
  -- as orders are kept under their own identifiers, none of these is cancelled twice
  have hnodup : (q.staleIds (Venue.tickSize (Venue.clearInactive v))
      (Venue.orders (Venue.clearInactive v))).Nodup := by
    rw [q.staleIds_eq _ hown]
    exact (List.filter_sublist.map Prod.fst).nodup (itemwise.distinct hgood)
  exact itemwise.agrees_cancelAll hgood (itemwise.good_clearInactive good') halike hnodup hperm

end Venue.Itemwise

/-! ### Three venues that cancel orders one by one -/

private theorem OrderTable.perm_put {t u : OrderTable R} (perm : t.Perm u) (id : OrderId)
    (order : RestingOrder R) : (t.put id order).Perm (u.put id order) := by
  have hhas : t.has id = u.has id := perm.any_eq
  unfold put
  rw [hhas]
  split
  · exact perm.map _
  · exact perm.append_right _

/-- The replaying venue without its orders and its logs. -/
def ReplayVenue.bare (v : ReplayVenue R) : ReplayVenue R := { v.clearLogs with orders := [] }

/-- The replaying venue cancels orders one by one. -/
theorem ReplayVenue.itemwise [Scalar R] :
    Venue.Itemwise (fun v : ReplayVenue R ↦ (v.orders.map Prod.fst).Nodup) ReplayVenue.bare where
  toStable := ReplayVenue.stable
  tickSize alike := (congrArg ReplayVenue.tickSize alike.rest :)
  position alike := (congrArg ReplayVenue.position alike.rest :)
  clearInactive _ _ alike := ⟨alike.rest, alike.orders.filter _⟩
  kept_of_clearInactive good found := ReplayVenue.honest.kept_of_clearInactive good found
  submit {v w} request _ _ alike := by
    have hrefusing : v.refusing = w.refusing := (congrArg ReplayVenue.refusing alike.rest :)
    simp only [Venue.submit, ReplayVenue.submit]
    by_cases refused : v.refusing = true
    · rw [if_pos refused, if_pos (hrefusing ▸ refused)]
      exact ⟨rfl, alike⟩
    · rw [if_neg refused, if_neg (hrefusing ▸ refused)]
      exact ⟨rfl, alike.rest, OrderTable.perm_put alike.orders _ _⟩
  rest_cancel {v} id _ := by
    simp only [Venue.cancel, ReplayVenue.cancel]
    split <;> rfl
  kept_cancel_of_ne good ne := ReplayVenue.honest.kept_cancel_of_ne good ne
  cancel {v w id} _ _ _ same := by
    simp only [Venue.kept, Venue.orders] at same
    simp only [Venue.kept, Venue.orders, Venue.cancel, ReplayVenue.cancel, same]
    split <;> simp [OrderTable.get?_adjust, same]

/-- The random market without its orders. -/
def RandomWalk.bare (v : RandomWalk) : RandomWalk := { v with orders := [] }

/-- The random market cancels orders one by one. -/
theorem RandomWalk.itemwise :
    Venue.Itemwise (fun v : RandomWalk ↦ (v.orders.map Prod.fst).Nodup) RandomWalk.bare where
  toStable := RandomWalk.stable
  tickSize _ := rfl
  position alike := (congrArg RandomWalk.position alike.rest :)
  clearInactive _ _ alike := ⟨alike.rest, alike.orders.filter _⟩
  kept_of_clearInactive good found := RandomWalk.honest.kept_of_clearInactive good found
  submit _ _ _ alike := ⟨rfl, alike.rest, OrderTable.perm_put alike.orders _ _⟩
  rest_cancel {v} id _ := by
    simp only [Venue.cancel, RandomWalk.cancel]
    split <;> rfl
  kept_cancel_of_ne good ne := RandomWalk.honest.kept_cancel_of_ne good ne
  cancel {v w id} _ _ _ same := by
    simp only [Venue.kept, Venue.orders] at same
    simp only [Venue.kept, Venue.orders, Venue.cancel, RandomWalk.cancel, same]
    split <;> simp [OrderTable.get?_adjust, same]

/-- The scripted venue without its orders and its logs. -/
def ScriptedVenue.bare (v : ScriptedVenue R) : ScriptedVenue R := { v.clearLogs with orders := [] }

/-- The scripted venue cancels orders one by one, whether it marks or removes them or refuses to. -/
theorem ScriptedVenue.itemwise [Scalar R] :
    Venue.Itemwise (fun v : ScriptedVenue R ↦ (v.orders.map Prod.fst).Nodup)
      ScriptedVenue.bare where
  toStable := ScriptedVenue.stable
  tickSize alike := (congrArg ScriptedVenue.tickSize alike.rest :)
  position alike := (congrArg ScriptedVenue.position alike.rest :)
  clearInactive {v w} _ _ alike := by
    have hkeep : v.keepInactive = w.keepInactive :=
      (congrArg ScriptedVenue.keepInactive alike.rest :)
    refine ⟨alike.rest, ?_⟩
    simp only [Venue.orders, Venue.clearInactive, hkeep]
    split
    · exact alike.orders
    · exact alike.orders.filter _
  kept_of_clearInactive good found := ScriptedVenue.honest.kept_of_clearInactive good found
  submit {v w} request _ _ alike := by
    have hrejected : v.rejected = w.rejected := (congrArg ScriptedVenue.rejected alike.rest :)
    have hfailing : v.failing = w.failing := (congrArg ScriptedVenue.failing alike.rest :)
    have hrefusal : v.refusal? request.id = w.refusal? request.id := by
      simp only [ScriptedVenue.refusal?, hrejected, hfailing]
    simp only [Venue.submit, ScriptedVenue.submit_eq, hrefusal]
    cases w.refusal? request.id with
    | some e => exact ⟨rfl, alike.rest, alike.orders⟩
    | none => exact ⟨rfl, alike.rest, OrderTable.perm_put alike.orders _ _⟩
  rest_cancel _ _ := rfl
  kept_cancel_of_ne good ne := ScriptedVenue.honest.kept_cancel_of_ne good ne
  cancel {v w id} _ _ rest same := by
    have hmode : v.cancelMode = w.cancelMode := (congrArg ScriptedVenue.cancelMode rest :)
    simp only [Venue.kept, Venue.orders] at same
    have haccepted : (v.cancel id).1 = (w.cancel id).1 := by
      simp only [ScriptedVenue.cancel, hmode, same]
    refine ⟨haccepted, ?_⟩
    simp only [Venue.kept, Venue.orders, Venue.cancel, ScriptedVenue.get?_cancel, haccepted, hmode,
      same]

/-! ### Any two listings -/

/-- A pass at a venue that cancels orders one by one and keeps them under their own identifiers does
not depend on how the orders are listed: it comes to the same result, orders and position, with the
same requests, and the same cancellations are accepted and refused. -/
theorem OrderLimits.reconcile_agrees [Scalar R] {Good : V → Prop} {rest : V → S}
    (limits : OrderLimits R) (q : Quote R) (itemwise : Venue.Itemwise Good rest) {v w : V}
    (good : Good v) (good' : Good w) (alike : Venue.Alike rest v w)
    (own : ∀ entry ∈ Venue.orders v, entry.2.id = entry.1) :
    (limits.reconcile q v).Agrees rest (limits.reconcile q w) ∧
      Venue.position (limits.reconcile q v).venue =
        Venue.position (limits.reconcile q w).venue := by
  have hagrees : (limits.reconcile q v).Agrees rest (limits.reconcile q w) := by
    have hcancels := itemwise.agrees_cancels q good good' alike own
    have hgood : Good (cancels q v).venue :=
      itemwise.good_cancelAll _ (itemwise.good_clearInactive good)
    have hgood' : Good (cancels q w).venue :=
      itemwise.good_cancelAll _ (itemwise.good_clearInactive good')
    have htick := itemwise.tickSize (itemwise.clearInactive good good' alike)
    have hposition := itemwise.position hcancels.venue
    have hbid : (limits.bidPass q v).Agrees rest (limits.bidPass q w) := by
      unfold bidPass
      rw [htick, hposition]
      exact itemwise.agrees_placeSide limits q _ _ .buy hgood hgood' hcancels.venue
    have hask : (limits.askPass q v).Agrees rest (limits.askPass q w) := by
      unfold askPass
      rw [htick, hposition]
      exact itemwise.agrees_placeSide limits q _ _ .sell
        (itemwise.good_placeSide limits q _ _ .buy hgood)
        (itemwise.good_placeSide limits q _ _ .buy hgood') hbid.venue
    cases hresult : (limits.bidPass q v).result with
    | error e =>
      rw [reconcile_of_bid_error hresult, reconcile_of_bid_error (hbid.result ▸ hresult)]
      exact hcancels.followed hbid rfl
    | ok placed =>
      rw [reconcile_of_bid_ok hresult, reconcile_of_bid_ok (hbid.result ▸ hresult)]
      have hplaced := hcancels.followed hbid (rfl : placed = placed)
      apply hplaced.followed hask
      rw [hcancels.result, hask.result]
  exact ⟨hagrees, itemwise.position hagrees.venue⟩

/-- Two stale orders, one that cannot be cancelled and one at its quote, listed forwards and
backwards: the stale ones are cancelled in either order. -/
theorem OrderLimits.reconcile_agrees_reverse :
    let orders : OrderTable Float :=
      [(⟨98⟩, ⟨⟨98⟩, .buy, 98, 1, .active, true⟩), (⟨50⟩, ⟨⟨50⟩, .buy, 50, 1, .active, false⟩),
        (⟨102⟩, ⟨⟨102⟩, .sell, 102, 1, .active, true⟩),
        (⟨105⟩, ⟨⟨105⟩, .sell, 105, 1, .active, true⟩)]
    let venue (orders : OrderTable Float) : ScriptedVenue Float :=
      { ScriptedVenue.idle 1 with orders }
    let q : Quote Float := ⟨1.5, 0, 99, 102⟩
    let limits : OrderLimits Float := ⟨5, 1⟩
    let forwards := limits.reconcile q (venue orders)
    let backwards := limits.reconcile q (venue orders.reverse)
    cancellations forwards.events = [(⟨98⟩, true), (⟨105⟩, true)] ∧
      cancellations backwards.events = [(⟨105⟩, true), (⟨98⟩, true)] ∧
      forwards.Agrees ScriptedVenue.bare backwards ∧
      Venue.position forwards.venue = Venue.position backwards.venue := by
  intro orders venue q limits forwards backwards
  have hdistinct : (orders.map Prod.fst).Nodup := by decide
  have hreverse : (orders.reverse.map Prod.fst).Nodup := by decide
  have halike : Venue.Alike ScriptedVenue.bare (venue orders) (venue orders.reverse) :=
    ⟨rfl, (List.reverse_perm orders).symm⟩
  have hown : ∀ entry ∈ orders, entry.2.id = entry.1 := by decide
  refine ⟨?_, ?_, limits.reconcile_agrees q ScriptedVenue.itemwise hdistinct hreverse halike hown⟩
  · decide +kernel
  · decide +kernel

end MarketMaking
