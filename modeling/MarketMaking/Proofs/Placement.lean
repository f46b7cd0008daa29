import MarketMaking.Binary64.Scalar
import MarketMaking.Proofs.Levels

/-!
# Which quotes a pass places

At a venue that does what it is asked, a pass leaves an active order at the quote of every side that
the limits admit, with one exception. An order of the other side that was active at that level is
stale, and a venue that keeps it after its cancellation keeps the level taken until the next pass.
-/

namespace MarketMaking

variable {R V : Type}

/-- When orders are kept under their own identifiers, the identifiers to cancel are those under
which the stale ones are kept. -/
theorem Quote.staleIds_eq [Scalar R] (q : Quote R) (tick : R) {t : OrderTable R}
    (keyed : ∀ entry ∈ t, entry.2.id = entry.1) :
    q.staleIds tick t = (t.filter (q.isStale tick ·.2)).map Prod.fst := by
  rw [Quote.staleIds, List.filter_map, List.map_map]
  apply List.map_congr_left
  intro entry mem
  exact keyed entry (List.mem_filter.mp mem).1

variable [Venue V R]

namespace Venue

/-- The order that the venue keeps under an identifier. -/
def kept (v : V) (id : OrderId) : Option (RestingOrder R) := (orders v).get? id

/-- Whether an identifier is taken is a matter of what is kept under it. -/
theorem has_eq_isSome_kept (v : V) (id : OrderId) : (orders v).has id = (kept v id).isSome :=
  OrderTable.has_eq_isSome_get? _ _

/-- A level is free when nothing is kept there. -/
theorem has_eq_false_iff {v : V} {id : OrderId} : (orders v).has id = false ↔ kept v id = none := by
  rw [has_eq_isSome_kept, Option.isSome_eq_false_iff, Option.isNone_iff_eq_none]

/-- What a side lacks is a matter of what is kept where. -/
theorem missing?_congr [Scalar R] {limits : OrderLimits R} {q : Quote R} {tick position : R}
    {side : Side} {v w : V} (same : ∀ id, kept v id = kept w id) :
    limits.missing? q tick position side v = limits.missing? q tick position side w := by
  simp only [OrderLimits.missing?, has_eq_isSome_kept, same]

/-- A venue that does what it is asked in the states of `Good`: it drops the inactive orders,
cancels an active order that can be cancelled, and accepts all requests. Other orders stay as they
are. -/
structure Obliging (Good : V → Prop) : Prop where
  position_clearInactive {v : V} : Good v → position (clearInactive v) = position v
  position_cancel {v : V} (id : OrderId) : Good v → position (cancel v id).2 = position v
  kept_clearInactive {v : V} (id : OrderId) : Good v →
    kept (clearInactive v) id = (kept v id).filter (·.isActive)
  /-- A cancelled order is removed, or it is kept as a cancelled one. -/
  kept_cancel {v : V} {id : OrderId} {order : RestingOrder R} : Good v →
    kept v id = some order → order.isActive = true → order.cancellable = true →
      (cancel v id).1 = true ∧
        (kept (cancel v id).2 id = none ∨ kept (cancel v id).2 id = some order.cancelled)
  kept_cancel_of_ne {v : V} {id other : OrderId} : Good v → id ≠ other →
    kept (cancel v id).2 other = kept v other
  accepts {v : V} (request : OrderRequest R) : Good v → (submit v request).1 = .ok ()
  kept_submit {v : V} (request : OrderRequest R) (id : OrderId) : Good v →
    kept (submit v request).2 id = if request.id = id then some request.accepted else kept v id

/-- The states of an orderly venue in which something holds that no operation changes. -/
theorem Orderly.restrict {Good P : V → Prop} {tick : R} (orderly : Orderly Good tick)
    (keepsTrades : ∀ v, P v → P (Venue.clearTrades v))
    (keepsInactive : ∀ v, P v → P (Venue.clearInactive v))
    (keepsCancel : ∀ v id, P v → P (Venue.cancel v id).2)
    (keepsSubmit : ∀ v request, P v → P (Venue.submit v request).2) :
    Orderly (fun v ↦ Good v ∧ P v) tick where
  good_clearTrades good := ⟨orderly.good_clearTrades good.1, keepsTrades _ good.2⟩
  good_clearInactive good := ⟨orderly.good_clearInactive good.1, keepsInactive _ good.2⟩
  good_cancel id good := ⟨orderly.good_cancel id good.1, keepsCancel _ id good.2⟩
  good_submit request good := ⟨orderly.good_submit request good.1, keepsSubmit _ request good.2⟩
  distinct good := orderly.distinct good.1
  tickSize good := orderly.tickSize good.1
  clearTrades good := orderly.clearTrades good.1
  clearInactive good := orderly.clearInactive good.1
  cancel id good := orderly.cancel id good.1
  cancelled good := orderly.cancelled good.1
  submit request good := orderly.submit request good.1

end Venue

/-! ### Two obliging venues -/

/-- The replaying venue is orderly while it refuses no orders. -/
theorem ReplayVenue.orderly_willing {R : Type} [Scalar R] (tick : R) :
    Venue.Orderly (fun v : ReplayVenue R ↦
      ((v.orders.map Prod.fst).Nodup ∧ v.tickSize = tick) ∧ v.refusing = false) tick := by
  apply (ReplayVenue.orderly tick).restrict
  · exact fun _ willing ↦ willing
  · exact fun _ willing ↦ willing
  · intro v id willing
    simp only [Venue.cancel, ReplayVenue.cancel]
    split <;> exact willing
  · intro v request willing
    simp [Venue.submit, ReplayVenue.submit, willing]

/-- The replaying venue is obliging while it refuses no orders. -/
theorem ReplayVenue.obliging {R : Type} [Scalar R] (tick : R) :
    Venue.Obliging (fun v : ReplayVenue R ↦
      ((v.orders.map Prod.fst).Nodup ∧ v.tickSize = tick) ∧ v.refusing = false) where
  position_clearInactive _ := rfl
  position_cancel id _ := by
    simp only [Venue.cancel, ReplayVenue.cancel]
    split <;> rfl
  kept_clearInactive id good := OrderTable.get?_activeOnly good.1.1 id
  kept_cancel {v id order} _ found active cancellable := by
    simp only [Venue.kept, Venue.orders] at found
    simp [Venue.cancel, ReplayVenue.cancel, Venue.kept, Venue.orders, found, active, cancellable,
      OrderTable.get?_adjust]
  kept_cancel_of_ne _ ne := by
    simp only [Venue.cancel, ReplayVenue.cancel, Venue.kept, Venue.orders]
    split <;> simp [OrderTable.get?_adjust, ne]
  accepts request good := by
    simp [Venue.submit, ReplayVenue.submit, good.2]
  kept_submit request id good := by
    simp [Venue.submit, ReplayVenue.submit, good.2, Venue.kept, Venue.orders, OrderTable.get?_put]

/-- The random market is obliging. -/
theorem RandomWalk.obliging :
    Venue.Obliging (fun v : RandomWalk ↦ (v.orders.map Prod.fst).Nodup) where
  position_clearInactive _ := rfl
  position_cancel id _ := by
    simp only [Venue.cancel, RandomWalk.cancel]
    split <;> rfl
  kept_clearInactive id good := OrderTable.get?_activeOnly good id
  kept_cancel {v id order} _ found active _ := by
    simp only [Venue.kept, Venue.orders] at found
    simp [Venue.cancel, RandomWalk.cancel, Venue.kept, Venue.orders, found, active,
      OrderTable.get?_adjust]
  kept_cancel_of_ne _ ne := by
    simp only [Venue.cancel, RandomWalk.cancel, Venue.kept, Venue.orders]
    split <;> simp [OrderTable.get?_adjust, ne]
  accepts _ _ := rfl
  kept_submit request id _ := OrderTable.get?_put _ _ _ _

namespace Venue

/-! ### What is cancelled -/

section Cancellation

variable {Good : V → Prop} {tick : R} {v : V}

/-- The active orders are those found active under their identifiers. -/
theorem Orderly.mem_active (orderly : Orderly Good tick) (good : Good v) {id : OrderId}
    {order : RestingOrder R} :
    (id, order) ∈ active v ↔ kept v id = some order ∧ order.isActive = true := by
  rw [active, OrderTable.mem_activeOnly]
  constructor
  · rintro ⟨hmem, hactive⟩
    exact ⟨OrderTable.get?_of_mem (orderly.distinct good) hmem, hactive⟩
  · rintro ⟨hkept, hactive⟩
    exact ⟨OrderTable.mem_of_get? hkept, hactive⟩

/-- At most one active order is kept under an identifier. -/
theorem Orderly.active_unique (orderly : Orderly Good tick) (good : Good v) {id : OrderId}
    {order other : RestingOrder R} (mem : (id, order) ∈ active v) (mem' : (id, other) ∈ active v) :
    order = other := by
  obtain ⟨hfound, -⟩ := (orderly.mem_active good).mp mem
  obtain ⟨hfound', -⟩ := (orderly.mem_active good).mp mem'
  exact Option.some.inj (hfound.symm.trans hfound')

private theorem Obliging.kept_cancelAll_of_not_mem (obliging : Obliging Good)
    (orderly : Orderly Good tick) {ids : List OrderId} {id : OrderId} (good : Good v)
    (not_mem : id ∉ ids) : kept (cancelAll ids v).venue id = kept v id := by
  induction ids generalizing v with
  | nil => rfl
  | cons head ids ih =>
    rw [List.mem_cons, not_or] at not_mem
    exact (ih (orderly.good_cancel head good) not_mem.2).trans
      (obliging.kept_cancel_of_ne good (Ne.symm not_mem.1))

/-- What is found in the end under an identifier that is cancelled once is what its own cancellation
left there. -/
theorem Obliging.kept_cancelAll_of_mem (obliging : Obliging Good) (orderly : Orderly Good tick)
    {ids : List OrderId} {id : OrderId} (good : Good v) (nodup : ids.Nodup) (mem : id ∈ ids) :
    ∃ w, Good w ∧ kept w id = kept v id ∧
      kept (cancelAll ids v).venue id = kept (cancel w id).2 id := by
  induction ids generalizing v with
  | nil => cases mem
  | cons head ids ih =>
    rw [List.nodup_cons] at nodup
    have hgood := orderly.good_cancel head good
    by_cases heq : head = id
    · subst heq
      exact ⟨v, good, rfl, obliging.kept_cancelAll_of_not_mem orderly hgood nodup.1⟩
    · obtain ⟨w, hw, hsame, hleft⟩ :=
        ih hgood nodup.2 ((List.mem_cons.mp mem).resolve_left (Ne.symm heq))
      exact ⟨w, hw, hsame.trans (obliging.kept_cancel_of_ne good heq), hleft⟩

/-- The orders that are left once the inactive ones are dropped are the active ones. -/
theorem Obliging.mem_orders_clearInactive (obliging : Obliging Good) (orderly : Orderly Good tick)
    (good : Good v) {id : OrderId} {order : RestingOrder R} :
    (id, order) ∈ orders (clearInactive v) ↔ (id, order) ∈ active v := by
  have hgood := orderly.good_clearInactive good
  rw [orderly.mem_active good]
  constructor
  · intro mem
    have hkept : kept (clearInactive v) id = some order :=
      OrderTable.get?_of_mem (orderly.distinct hgood) mem
    rw [obliging.kept_clearInactive id good] at hkept
    exact Option.filter_eq_some_iff.mp hkept
  · intro hkept
    rw [← Option.filter_eq_some_iff, ← obliging.kept_clearInactive id good] at hkept
    exact OrderTable.mem_of_get? hkept

variable [Scalar R] {q : Quote R}

/-- A pass leaves the position as it is until it places orders. -/
theorem Obliging.position_cancels (obliging : Obliging Good) (orderly : Orderly Good tick)
    (good : Good v) : position (OrderLimits.cancels q v).venue = position v := by
  have hcancels : Good (OrderLimits.cancels q v).venue ∧
      position (OrderLimits.cancels q v).venue = position v := by
    apply OrderLimits.cancels_invariant (P := fun w ↦ Good w ∧ position w = position v)
    · rintro w ⟨hgood, same⟩
      exact ⟨orderly.good_clearInactive hgood, (obliging.position_clearInactive hgood).trans same⟩
    · rintro w id ⟨hgood, same⟩
      exact ⟨orderly.good_cancel id hgood, (obliging.position_cancel id hgood).trans same⟩
    · exact ⟨good, rfl⟩
  exact hcancels.2

/-- A pass cancels each stale order once. -/
theorem Obliging.staleIds (obliging : Obliging Good) (orderly : Orderly Good tick) (good : Good v)
    (owned : Owned v) (q : Quote R) :
    (q.staleIds tick (orders (clearInactive v))).Nodup ∧
      ∀ id, id ∈ q.staleIds tick (orders (clearInactive v)) ↔
        ∃ order, (id, order) ∈ active v ∧ q.isStale tick order = true := by
  have hkeyed : ∀ entry ∈ orders (clearInactive v), entry.2.id = entry.1 := by
    intro entry mem
    exact owned entry ((obliging.mem_orders_clearInactive orderly good).mp mem)
  rw [q.staleIds_eq tick hkeyed]
  constructor
  · exact (List.filter_sublist.map Prod.fst).nodup
      (orderly.distinct (orderly.good_clearInactive good))
  · intro id
    simp only [List.mem_map, List.mem_filter, Prod.exists, exists_and_right, exists_eq_right,
      obliging.mem_orders_clearInactive orderly good]

/-- A level without an active order is free when the stale orders are cancelled. -/
theorem Obliging.kept_cancels_of_free (obliging : Obliging Good) (orderly : Orderly Good tick)
    (good : Good v) (owned : Owned v) {id : OrderId}
    (free : ∀ order, (id, order) ∉ active v) : kept (OrderLimits.cancels q v).venue id = none := by
  have hgood := orderly.good_clearInactive good
  unfold OrderLimits.cancels
  rw [orderly.tickSize hgood, obliging.kept_cancelAll_of_not_mem orderly hgood]
  · cases hkept : kept (clearInactive v) id with
    | none => rfl
    | some order =>
      have hmem := OrderTable.mem_of_get? hkept
      exact absurd ((obliging.mem_orders_clearInactive orderly good).mp hmem) (free order)
  · intro mem
    obtain ⟨order, hmem, -⟩ := ((obliging.staleIds orderly good owned q).2 id).mp mem
    exact free order hmem

/-- An active order at the quote of its side is still there when the stale orders are cancelled. -/
theorem Obliging.kept_cancels_of_fresh (obliging : Obliging Good) (orderly : Orderly Good tick)
    (good : Good v) (owned : Owned v) {id : OrderId} {order : RestingOrder R}
    (mem : (id, order) ∈ active v) (fresh : q.isStale tick order = false) :
    kept (OrderLimits.cancels q v).venue id = some order := by
  have hgood := orderly.good_clearInactive good
  have hfound := (orderly.mem_active good).mp mem
  unfold OrderLimits.cancels
  rw [orderly.tickSize hgood, obliging.kept_cancelAll_of_not_mem orderly hgood,
    obliging.kept_clearInactive id good]
  · exact Option.filter_eq_some_iff.mpr hfound
  · intro hmem
    obtain ⟨other, hother, hstale⟩ := ((obliging.staleIds orderly good owned q).2 id).mp hmem
    rw [orderly.active_unique good mem hother, hstale] at fresh
    cases fresh

/-- What is found of a stale active order is what its cancellation left. -/
theorem Obliging.kept_cancels_of_stale (obliging : Obliging Good) (orderly : Orderly Good tick)
    (good : Good v) (owned : Owned v) {id : OrderId} {order : RestingOrder R}
    (mem : (id, order) ∈ active v) (stale : q.isStale tick order = true) :
    ∃ w, Good w ∧ kept w id = some order ∧
      kept (OrderLimits.cancels q v).venue id = kept (cancel w id).2 id := by
  have hgood := orderly.good_clearInactive good
  have hopen : kept (clearInactive v) id = some order := by
    rw [obliging.kept_clearInactive id good]
    exact Option.filter_eq_some_iff.mpr ((orderly.mem_active good).mp mem)
  obtain ⟨hnodup, hmem⟩ := obliging.staleIds orderly good owned q
  unfold OrderLimits.cancels
  rw [orderly.tickSize hgood, ← hopen]
  exact obliging.kept_cancelAll_of_mem orderly hgood hnodup ((hmem id).mpr ⟨order, mem, stale⟩)

/-- An active order kept under its own level is stale when that is not the level quoted on its side.
-/
theorem Keyed.isStale_iff (keyed : Keyed tick v) {id : OrderId} {order : RestingOrder R}
    (mem : (id, order) ∈ active v) :
    q.isStale tick order = true ↔ q.level? tick order.side ≠ some id := by
  obtain ⟨hcancellable, -, hlevel⟩ := keyed _ mem
  dsimp only at hcancellable hlevel
  simp [Quote.isStale, hcancellable, hlevel]

/-- An order of the other side was active under the identifier, and the venue still keeps one there
when the stale orders are cancelled. -/
def Blocked (q : Quote R) (v : V) (side : Side) (id : OrderId) : Prop :=
  (∃ order, (id, order) ∈ active v ∧ order.side = side.opposite) ∧
    (kept (OrderLimits.cancels q v).venue id).isSome = true

/-- When the stale orders are cancelled, the level quoted on a side is blocked by an order that is
no longer active, or it is not, and then it is free or holds an active order of the side. -/
theorem Obliging.kept_cancels_level (obliging : Obliging Good) (orderly : Orderly Good tick)
    (good : Good v) (keyed : Keyed tick v)
    (apart : ∀ id, q.level? tick .buy = some id → q.level? tick .sell ≠ some id)
    {side : Side} {id : OrderId} (level : q.level? tick side = some id) :
    (Blocked q v side id ∧ ∃ order, kept (OrderLimits.cancels q v).venue id = some order ∧
      order.isActive = false) ∨
    (¬ Blocked q v side id ∧ (kept (OrderLimits.cancels q v).venue id = none ∨
      ∃ order, kept (OrderLimits.cancels q v).venue id = some order ∧ order.isActive = true ∧
        order.side = side)) := by
  by_cases hold : ∃ order, (id, order) ∈ active v
  · obtain ⟨order, hmem⟩ := hold
    have hstale := keyed.isStale_iff (q := q) hmem
    by_cases hside : order.side = side
    · -- An order of the side rests at its quote: it stays, and none of the other side is there.
      right
      have hfresh : q.isStale tick order = false := by
        rw [← hside] at level
        simpa [level] using hstale
      constructor
      · rintro ⟨⟨other, hother, hopposite⟩, -⟩
        rw [← orderly.active_unique good hmem hother, hside] at hopposite
        cases side <;> cases hopposite
      · have hfound := obliging.kept_cancels_of_fresh orderly good keyed.owned hmem hfresh
        exact .inr ⟨order, hfound, ((orderly.mem_active good).mp hmem).2, hside⟩
    · have hopposite : order.side = side.opposite := by
        cases side <;> cases h : order.side <;> simp_all [Side.opposite]
      have hother : q.level? tick order.side ≠ some id := by
        rw [hopposite]
        cases side with
        | buy => exact apart id level
        | sell => exact fun h ↦ apart id h level
      obtain ⟨w, hw, hopen, hleft⟩ :=
        obliging.kept_cancels_of_stale orderly good keyed.owned hmem (hstale.mpr hother)
      have hactive := ((orderly.mem_active good).mp hmem).2
      have hafter := (obliging.kept_cancel hw hopen hactive (keyed _ hmem).1).2
      rw [← hleft] at hafter
      rcases hafter with hgone | hcancelled
      · right
        refine ⟨?_, .inl hgone⟩
        rintro ⟨-, hsome⟩
        rw [hgone] at hsome
        cases hsome
      · left
        refine ⟨⟨⟨order, hmem, hopposite⟩, ?_⟩, order.cancelled, hcancelled, rfl⟩
        rw [hcancelled]
        rfl
  · right
    refine ⟨fun blocked ↦ ?_, .inl ?_⟩
    · obtain ⟨⟨order, hmem, -⟩, -⟩ := blocked
      exact hold ⟨order, hmem⟩
    · apply obliging.kept_cancels_of_free orderly good keyed.owned
      exact fun order hmem ↦ hold ⟨order, hmem⟩

end Cancellation

/-! ### What is placed -/

section Placing

variable [Scalar R] {Good : V → Prop} {tick : R} {limits : OrderLimits R} {q : Quote R}
  {position : R} {side : Side} {v : V}

/-- Placing the quote of a side does not fail. -/
theorem Obliging.placeSide_ok (obliging : Obliging Good) (good : Good v) :
    ∃ placed, (limits.placeSide q tick position side v).result = .ok placed := by
  cases hmissing : limits.missing? q tick position side v with
  | none => exact ⟨false, by rw [OrderLimits.placeSide_of_missing?_eq_none hmissing]⟩
  | some request =>
    refine ⟨true, ?_⟩
    rw [OrderLimits.placeSide_of_missing?_eq_some hmissing, obliging.accepts request good]
    rfl

/-- Placing an admitted quote leaves what its level holds, or else the order asked for. -/
theorem Obliging.kept_placeSide (obliging : Obliging Good) (good : Good v) {price : R}
    (quoted : q.on side = some price) (admitted : limits.admits position side = true) :
    kept (limits.placeSide q tick position side v).venue (OrderId.ofPrice price tick) =
      some ((kept v (OrderId.ofPrice price tick)).getD
        (limits.request side price tick).accepted) := by
  have hwanted : limits.wanted? q tick position side = some (limits.request side price tick) :=
    OrderLimits.wanted?_eq_some_iff.mpr ⟨price, quoted, admitted, rfl⟩
  cases hmissing : limits.missing? q tick position side v with
  | none =>
    have htaken := OrderLimits.missing?_eq_none_iff.mp hmissing _ hwanted
    rw [has_eq_isSome_kept] at htaken
    obtain ⟨order, hfound⟩ := Option.isSome_iff_exists.mp htaken
    have hkept : kept v (OrderId.ofPrice price tick) = some order := hfound
    rw [OrderLimits.placeSide_of_missing?_eq_none hmissing, hkept]
    rfl
  | some request =>
    obtain ⟨hrequest, hfree⟩ := OrderLimits.missing?_eq_some_iff.mp hmissing
    obtain rfl := Option.some.inj (hwanted.symm.trans hrequest)
    have hkept : kept v (OrderId.ofPrice price tick) = none := has_eq_false_iff.mp hfree
    rw [OrderLimits.placeSide_of_missing?_eq_some hmissing, obliging.kept_submit _ _ good, hkept]
    exact if_pos rfl

private theorem Obliging.kept_placeSide_of_ne (obliging : Obliging Good) (good : Good v)
    {id : OrderId} (other : q.level? tick side ≠ some id) :
    kept (limits.placeSide q tick position side v).venue id = kept v id := by
  cases hmissing : limits.missing? q tick position side v with
  | none => rw [OrderLimits.placeSide_of_missing?_eq_none hmissing]
  | some request =>
    obtain ⟨price, hquoted, -, rfl⟩ :=
      OrderLimits.wanted?_eq_some_iff.mp (OrderLimits.missing?_eq_some_iff.mp hmissing).1
    rw [OrderLimits.placeSide_of_missing?_eq_some hmissing, obliging.kept_submit _ _ good]
    apply if_neg
    intro heq
    apply other
    rw [Quote.level?, hquoted]
    exact congrArg some heq

end Placing

end Venue

namespace OrderLimits

variable [Scalar R] {Good : V → Prop} {tick : R} {q : Quote R} {v : V}

/-- A pass at an obliging venue does not fail. The level of a quote that the limits admit holds what
was left there when the stale orders were cancelled, or else the order asked for. -/
theorem kept_reconcile (limits : OrderLimits R) (obliging : Venue.Obliging Good)
    (orderly : Venue.Orderly Good tick) (good : Good v)
    (apart : ∀ id, q.level? tick .buy = some id → q.level? tick .sell ≠ some id) :
    (∃ outcome, (limits.reconcile q v).result = .ok outcome) ∧
      ∀ side price, q.on side = some price → limits.admits (Venue.position v) side = true →
        Venue.kept (limits.reconcile q v).venue (OrderId.ofPrice price tick) =
          some ((Venue.kept (cancels q v).venue (OrderId.ofPrice price tick)).getD
            (limits.request side price tick).accepted) := by
  obtain ⟨hcancels, -, -⟩ := orderly.active_cancels q good
  obtain ⟨hbid, -⟩ := orderly.active_bidPass limits q good
  have htick : Venue.tickSize (Venue.clearInactive v) = tick :=
    orderly.tickSize (orderly.good_clearInactive good)
  have hposition : Venue.position (cancels q v).venue = Venue.position v :=
    obliging.position_cancels orderly good
  obtain ⟨placed, hplaced⟩ : ∃ placed, (limits.bidPass q v).result = .ok placed :=
    obliging.placeSide_ok hcancels
  obtain ⟨placed', hplaced'⟩ : ∃ placed, (limits.askPass q v).result = .ok placed :=
    obliging.placeSide_ok hbid
  rw [reconcile_of_bid_ok hplaced]
  constructor
  · rw [hplaced']
    exact ⟨_, rfl⟩
  · intro side price quoted admitted
    have hlevel : q.level? tick side = some (OrderId.ofPrice price tick) := by
      rw [Quote.level?, quoted]
      rfl
    show Venue.kept (limits.askPass q v).venue _ = _
    rw [← hposition] at admitted
    cases side with
    | buy =>
      rw [askPass, htick, obliging.kept_placeSide_of_ne hbid (apart _ hlevel), bidPass, htick,
        obliging.kept_placeSide hcancels quoted admitted]
    | sell =>
      have hother : q.level? tick .buy ≠ some (OrderId.ofPrice price tick) :=
        fun h ↦ apart _ h hlevel
      rw [askPass, htick, obliging.kept_placeSide hbid quoted admitted, bidPass, htick,
        obliging.kept_placeSide_of_ne hcancels hother]

/-- A pass over orders that rest under their own levels leaves an active order at the quote of every
side that the limits admit, unless the level is blocked: an order of the other side was active there
and the venue keeps it when it is cancelled. -/
theorem quotes_filled_iff (limits : OrderLimits R) (obliging : Venue.Obliging Good)
    (orderly : Venue.Orderly Good tick) (good : Good v) (keyed : Venue.Keyed tick v)
    (apart : ∀ id, q.level? tick .buy = some id → q.level? tick .sell ≠ some id) :
    (∃ outcome, (limits.reconcile q v).result = .ok outcome) ∧
      ∀ side price, q.on side = some price → limits.admits (Venue.position v) side = true →
        ((∃ order, (OrderId.ofPrice price tick, order) ∈
            Venue.active (limits.reconcile q v).venue ∧ order.side = side) ↔
          ¬ Venue.Blocked q v side (OrderId.ofPrice price tick)) := by
  obtain ⟨hok, hkept⟩ := limits.kept_reconcile obliging orderly good apart
  refine ⟨hok, fun side price quoted admitted ↦ ?_⟩
  obtain ⟨hgood, -⟩ := orderly.active_reconcile limits q good
  have hlevel : q.level? tick side = some (OrderId.ofPrice price tick) := by
    rw [Quote.level?, quoted]
    rfl
  have hafter := hkept side price quoted admitted
  simp only [orderly.mem_active hgood, hafter, Option.some.injEq]
  rcases obliging.kept_cancels_level orderly good keyed apart hlevel with
    ⟨hblocked, order, hfound, hinactive⟩ | ⟨hfree, hnone | ⟨order, hfound, hactive, hside⟩⟩
  · constructor
    · rintro ⟨_, ⟨rfl, hactive⟩, -⟩
      rw [hfound, Option.getD_some, hinactive] at hactive
      cases hactive
    · exact fun hfree ↦ absurd hblocked hfree
  · refine ⟨fun _ ↦ hfree, fun _ ↦ ⟨_, ⟨rfl, ?_⟩, ?_⟩⟩
    · rw [hnone]
      rfl
    · rw [hnone]
      rfl
  · refine ⟨fun _ ↦ hfree, fun _ ↦ ⟨_, ⟨rfl, ?_⟩, ?_⟩⟩
    · rw [hfound]
      exact hactive
    · rw [hfound]
      exact hside

/-- A bid and an ask on either side of an order to sell at 102. -/
theorem quotes_filled_iff_sell :
    let venue : ReplayVenue Float := (ReplayVenue.idle 101 104 1).insert ⟨102⟩ .sell 102 true
    let q : Quote Float := ⟨1.5, 0, 101, 104⟩
    let limits : OrderLimits Float := ⟨5, 1⟩
    (∃ outcome, (limits.reconcile q venue).result = .ok outcome) ∧
      ∀ side price, q.on side = some price → limits.admits (Venue.position venue) side = true →
        ((∃ order, (OrderId.ofPrice price 1, order) ∈
            Venue.active (limits.reconcile q venue).venue ∧ order.side = side) ↔
          ¬ Venue.Blocked q venue side (OrderId.ofPrice price 1)) := by
  intro venue q limits
  have hgood : ((venue.orders.map Prod.fst).Nodup ∧ venue.tickSize = 1) ∧
      venue.refusing = false := ⟨⟨by decide, rfl⟩, rfl⟩
  have hkeyed : Venue.Keyed (1 : Float) venue := by
    unfold Venue.Keyed
    decide +kernel
  have hapart : q.level? 1 .buy ≠ q.level? 1 .sell := by decide +kernel
  exact quotes_filled_iff limits (ReplayVenue.obliging 1) (ReplayVenue.orderly_willing 1) hgood
    hkeyed fun id hbid hask ↦ hapart (hbid.trans hask.symm)

/-- At a venue that keeps cancelled orders, a bid that moves to the level of the only order, one to
sell, leaves the pass without an active order to buy. -/
theorem not_filled_of_crossing :
    let venue : ReplayVenue Float := (ReplayVenue.idle 102 104 1).insert ⟨102⟩ .sell 102 true
    let q : Quote Float := ⟨1, 0, 102, 104⟩
    let limits : OrderLimits Float := ⟨5, 1⟩
    (∃ Good, Venue.Obliging (V := ReplayVenue Float) Good ∧
        Venue.Orderly (V := ReplayVenue Float) Good 1 ∧ Good venue) ∧
      (∀ entry ∈ venue.orders, entry.2.cancellable = true ∧ entry.2.id = entry.1 ∧
        OrderId.ofPrice entry.2.price 1 = entry.1) ∧
      q.level? 1 .buy ≠ q.level? 1 .sell ∧
      q.on .buy = some 102 ∧ limits.admits (Venue.position venue) .buy = true ∧
      (limits.reconcile q venue).result.isOk = true ∧
      ∀ entry ∈ Venue.active (limits.reconcile q venue).venue, entry.2.side ≠ .buy := by
  refine ⟨⟨_, ReplayVenue.obliging 1, ReplayVenue.orderly_willing 1, ?_⟩, ?_⟩
  · exact ⟨⟨by decide, rfl⟩, rfl⟩
  · decide +kernel

end OrderLimits

end MarketMaking
