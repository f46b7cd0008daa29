import MarketMaking.Proofs.Placement
import MarketMaking.Venue.Scripted

/-!
# Honest venues

A venue may refuse what it likes and still be honest about it: what it accepts takes effect, and
what it refuses changes nothing. The replaying venue, the random market and the scripted venue are
honest in all states that keep no two orders under one identifier, whatever they refuse.
-/

namespace MarketMaking

variable {R V : Type} [Venue V R]

namespace Venue

/-- A venue whose states are those of `Good`, which a pass does not leave. -/
structure Stable (Good : V → Prop) : Prop where
  good_clearInactive {v : V} : Good v → Good (clearInactive v)
  good_cancel {v : V} (id : OrderId) : Good v → Good (cancel v id).2
  good_submit {v : V} (request : OrderRequest R) : Good v → Good (submit v request).2
  /-- No two orders are kept under one identifier. -/
  distinct {v : V} : Good v → ((orders v).map Prod.fst).Nodup

/-- A venue that enters the orders that it accepts, and no others. -/
structure TakesOrders (Good : V → Prop) : Prop where
  kept_submit_of_accepted {v : V} {request : OrderRequest R} (id : OrderId) : Good v →
    (submit v request).1 = .ok () →
      kept (submit v request).2 id = if request.id = id then some request.accepted else kept v id
  kept_submit_of_refused {v : V} {request : OrderRequest R} {e : Error R} (id : OrderId) : Good v →
    (submit v request).1 = .error e → kept (submit v request).2 id = kept v id

/-- A venue at which exactly what is accepted takes effect. -/
structure Honest (Good : V → Prop) : Prop extends Stable Good, TakesOrders Good where
  /-- An inactive order may be dropped, and nothing else happens when they are to be dropped. -/
  kept_clearInactive {v : V} (id : OrderId) : Good v →
    kept (clearInactive v) id = kept v id ∨
      kept (clearInactive v) id = (kept v id).filter (·.isActive)
  kept_cancel_of_ne {v : V} {id other : OrderId} : Good v → id ≠ other →
    kept (cancel v id).2 other = kept v other
  kept_cancel_of_refused {v : V} {id : OrderId} : Good v → (cancel v id).1 = false →
    kept (cancel v id).2 id = kept v id
  /-- A cancelled order is removed, or it is kept as a cancelled one. -/
  kept_cancel_of_accepted {v : V} {id : OrderId} : Good v → (cancel v id).1 = true →
    kept (cancel v id).2 id = none ∨
      kept (cancel v id).2 id = (kept v id).map RestingOrder.cancelled

/-- An entry of the order table is found under its identifier. -/
theorem Stable.mem_orders {Good : V → Prop} (stable : Stable Good) {v : V} (good : Good v)
    {id : OrderId} {order : RestingOrder R} :
    (id, order) ∈ orders v ↔ kept v id = some order :=
  ⟨OrderTable.get?_of_mem (stable.distinct good), OrderTable.mem_of_get?⟩

/-- Cancelling a list of orders leaves a state of the venue. -/
theorem Stable.good_cancelAll {Good : V → Prop} (stable : Stable Good) (ids : List OrderId) {v : V}
    (good : Good v) : Good (cancelAll ids v).venue :=
  cancelAll_invariant (fun _ id good ↦ stable.good_cancel id good) ids good

/-- Placing the quote of a side leaves a state of the venue. -/
theorem Stable.good_placeSide [Scalar R] {Good : V → Prop} (stable : Stable Good)
    (limits : OrderLimits R) (q : Quote R) (tick position : R) (side : Side) {v : V}
    (good : Good v) : Good (limits.placeSide q tick position side v).venue := by
  cases hmissing : limits.missing? q tick position side v with
  | none => rwa [OrderLimits.placeSide_of_missing?_eq_none hmissing]
  | some request =>
    rw [OrderLimits.placeSide_of_missing?_eq_some hmissing]
    exact stable.good_submit request good

/-- Dropping inactive orders brings and changes none. -/
theorem Honest.kept_of_clearInactive {Good : V → Prop} (honest : Honest Good) {v : V}
    (good : Good v) {id : OrderId} {order : RestingOrder R}
    (found : kept (clearInactive v) id = some order) : kept v id = some order := by
  rcases honest.kept_clearInactive id good with hsame | hactive
  · rwa [hsame] at found
  · rw [hactive] at found
    exact (Option.filter_eq_some_iff.mp found).1

/-- Dropping inactive orders drops no active one. -/
theorem Honest.kept_clearInactive_of_active {Good : V → Prop} (honest : Honest Good) {v : V}
    (good : Good v) {id : OrderId} {order : RestingOrder R} (found : kept v id = some order)
    (active : order.isActive = true) : kept (clearInactive v) id = some order := by
  rcases honest.kept_clearInactive id good with hsame | hactive
  · rwa [hsame]
  · rw [hactive]
    exact Option.filter_eq_some_iff.mpr ⟨found, active⟩

end Venue

/-! ### Three honest venues -/

/-- The replaying venue is stable while it keeps no two orders under one identifier. -/
theorem ReplayVenue.stable {R : Type} [Scalar R] :
    Venue.Stable (fun v : ReplayVenue R ↦ (v.orders.map Prod.fst).Nodup) where
  good_clearInactive good := OrderTable.nodup_activeOnly good
  good_cancel {v} id good := ((ReplayVenue.orderly v.tickSize).good_cancel id ⟨good, rfl⟩).1
  good_submit {v} request good :=
    ((ReplayVenue.orderly v.tickSize).good_submit request ⟨good, rfl⟩).1
  distinct good := good

/-- The replaying venue is honest, also while it refuses all orders. -/
theorem ReplayVenue.honest {R : Type} [Scalar R] :
    Venue.Honest (fun v : ReplayVenue R ↦ (v.orders.map Prod.fst).Nodup) where
  toStable := ReplayVenue.stable
  kept_clearInactive id good := .inr (OrderTable.get?_activeOnly good id)
  kept_cancel_of_ne _ ne := by
    simp only [Venue.cancel, ReplayVenue.cancel, Venue.kept, Venue.orders]
    split <;> simp [OrderTable.get?_adjust, ne]
  kept_cancel_of_refused {v id} _ refused := by
    simp only [Venue.cancel, ReplayVenue.cancel] at refused ⊢
    split <;> simp_all
  kept_cancel_of_accepted {v id} _ accepted := by
    simp only [Venue.cancel, ReplayVenue.cancel, Venue.kept, Venue.orders] at accepted ⊢
    split <;> simp_all [OrderTable.get?_adjust]
  kept_submit_of_accepted {v request} id _ accepted := by
    simp only [Venue.submit, ReplayVenue.submit, Venue.kept, Venue.orders] at accepted ⊢
    split <;> simp_all [OrderTable.get?_put]
  kept_submit_of_refused {v request e} id _ refused := by
    simp only [Venue.submit, ReplayVenue.submit] at refused ⊢
    split <;> simp_all

/-- The random market is stable while it keeps no two orders under one identifier. -/
theorem RandomWalk.stable : Venue.Stable (fun v : RandomWalk ↦ (v.orders.map Prod.fst).Nodup) where
  good_clearInactive good := RandomWalk.orderly.good_clearInactive good
  good_cancel id good := RandomWalk.orderly.good_cancel id good
  good_submit request good := RandomWalk.orderly.good_submit request good
  distinct good := good

/-- The random market is honest. -/
theorem RandomWalk.honest : Venue.Honest (fun v : RandomWalk ↦ (v.orders.map Prod.fst).Nodup) where
  toStable := RandomWalk.stable
  kept_clearInactive id good := .inr (OrderTable.get?_activeOnly good id)
  kept_cancel_of_ne good ne := RandomWalk.obliging.kept_cancel_of_ne good ne
  kept_cancel_of_refused {v id} _ refused := by
    simp only [Venue.cancel, RandomWalk.cancel] at refused ⊢
    split <;> simp_all
  kept_cancel_of_accepted {v id} _ accepted := by
    simp only [Venue.cancel, RandomWalk.cancel, Venue.kept, Venue.orders] at accepted ⊢
    split <;> simp_all [OrderTable.get?_adjust]
  kept_submit_of_accepted {v request} id good _ := RandomWalk.obliging.kept_submit request id good
  kept_submit_of_refused {v request e} id _ refused := by cases refused

namespace ScriptedVenue

variable {R : Type}

/-- An accepted cancellation removes or marks the order, and a refused one changes none. -/
theorem orders_cancel (v : ScriptedVenue R) (id : OrderId) :
    (v.cancel id).2.orders =
      if (v.cancel id).1 = true then
        if v.cancelMode = .remove then v.orders.remove id
        else v.orders.adjust id RestingOrder.cancelled
      else v.orders := by
  unfold cancel
  generalize (v.orders.get? id).any (fun order ↦ order.isActive && order.cancellable) = isOpen
  cases hmode : v.cancelMode <;> cases isOpen <;> simp

/-- What is found after a cancellation is what was there, unless it was accepted for this
identifier. -/
theorem get?_cancel (v : ScriptedVenue R) (id other : OrderId) :
    (v.cancel id).2.orders.get? other =
      if (v.cancel id).1 = true ∧ id = other then
        if v.cancelMode = .remove then none else (v.orders.get? other).map RestingOrder.cancelled
      else v.orders.get? other := by
  rw [orders_cancel]
  split
  · next accepted =>
    split
    · simp [OrderTable.get?_remove, accepted]
    · simp [OrderTable.get?_adjust, accepted]
  · next refused => simp [refused]

/-- Why a scripted venue refuses an order under this identifier, if it does. -/
def refusal? (v : ScriptedVenue R) (id : OrderId) : Option (Error R) :=
  if v.rejected.contains id then some (.orderRejected id "would cross")
  else (v.failing.find? (·.1 = id)).map Prod.snd

/-- An order is entered when there is no reason to refuse it. -/
theorem submit_eq (v : ScriptedVenue R) (request : OrderRequest R) :
    v.submit request = match v.refusal? request.id with
      | some e => (.error e, { v with requestLog := v.requestLog.push (request, false) })
      | none => (.ok (), { v with
          orders := v.orders.put request.id request.accepted
          requestLog := v.requestLog.push (request, true) }) := rfl

variable [Scalar R]

/-- The scripted venue is stable while it keeps no two orders under one identifier. -/
theorem stable : Venue.Stable (fun v : ScriptedVenue R ↦ (v.orders.map Prod.fst).Nodup) where
  good_clearInactive {v} good := by
    simp only [Venue.clearInactive]
    split
    · exact good
    · exact OrderTable.nodup_activeOnly good
  good_cancel {v} id good := by
    simp only [Venue.cancel, cancel]
    split
    · exact good
    · split
      · exact (List.filter_sublist.map Prod.fst).nodup good
      · rw [OrderTable.keys_adjust]
        exact good
  good_submit {v} request good := by
    show ((v.submit request).2.orders.map Prod.fst).Nodup
    rw [submit_eq]
    cases v.refusal? request.id with
    | some e => exact good
    | none => exact OrderTable.nodup_put request.accepted good
  distinct good := good

/-- The scripted venue is honest, whatever it refuses, whether it drops inactive orders or not. -/
theorem honest : Venue.Honest (fun v : ScriptedVenue R ↦ (v.orders.map Prod.fst).Nodup) where
  toStable := stable
  kept_clearInactive {v} id good := by
    simp only [Venue.kept, Venue.orders, Venue.clearInactive]
    split
    · exact .inl rfl
    · exact .inr (OrderTable.get?_activeOnly good id)
  kept_cancel_of_ne {v id other} _ ne := by
    show (v.cancel id).2.orders.get? other = v.orders.get? other
    simp [get?_cancel, ne]
  kept_cancel_of_refused {v id} _ refused := by
    show (v.cancel id).2.orders.get? id = v.orders.get? id
    have hrefused : (v.cancel id).1 = false := refused
    simp [get?_cancel, hrefused]
  kept_cancel_of_accepted {v id} _ accepted := by
    show (v.cancel id).2.orders.get? id = none ∨
      (v.cancel id).2.orders.get? id = (v.orders.get? id).map RestingOrder.cancelled
    have haccepted : (v.cancel id).1 = true := accepted
    rw [get?_cancel, if_pos ⟨haccepted, rfl⟩]
    split
    · exact .inl rfl
    · exact .inr rfl
  kept_submit_of_accepted {v request} id _ accepted := by
    have haccepted : (v.submit request).1 = .ok () := accepted
    show (v.submit request).2.orders.get? id = _
    rw [submit_eq] at haccepted ⊢
    cases hrefusal : v.refusal? request.id with
    | some e => simp [hrefusal] at haccepted
    | none => exact OrderTable.get?_put _ _ _ _
  kept_submit_of_refused {v request e} id _ refused := by
    have hrefused : (v.submit request).1 = .error e := refused
    show (v.submit request).2.orders.get? id = v.orders.get? id
    rw [submit_eq] at hrefused ⊢
    cases hrefusal : v.refusal? request.id with
    | some e => rfl
    | none => simp [hrefusal] at hrefused

end ScriptedVenue

end MarketMaking
