import MarketMaking.Proofs.Frame

/-!
# Passes that come to rest

A pass at an obliging venue leaves no stale order active, so that the next one cancels nothing and
finds a level taken only by an order that stays. That pass leaves no side without its order, and all
later ones find nothing to do. Where cancelled orders are removed, no level is taken by an order
that is about to go, and already the first pass leaves nothing to do.
-/

namespace MarketMaking

variable {R V : Type} [Venue V R]

namespace Venue

private theorem Obliging.takesOrders {Good : V → Prop} (obliging : Obliging Good) :
    TakesOrders Good where
  kept_submit_of_accepted id good _ := obliging.kept_submit _ id good
  kept_submit_of_refused id good refused := by
    rw [obliging.accepts _ good] at refused
    cases refused

/-- An order that is taken in is not executed at once. -/
def Steady (Good : V → Prop) : Prop :=
  ∀ {v : V} (request : OrderRequest R), Good v → position (submit v request).2 = position v

/-- Open orders that are cancelled are removed. -/
def Removes (Good : V → Prop) : Prop :=
  ∀ {v : V} {id : OrderId} {order : RestingOrder R}, Good v → kept v id = some order →
    order.isActive = true → order.cancellable = true → kept (cancel v id).2 id = none

end Venue

/-! ### Scripted venues that do what they are asked -/

namespace ScriptedVenue

variable {R : Type} {mode : CancelMode} {tick : R} {v : ScriptedVenue R}

/-- A scripted venue that drops inactive orders, refuses none, and cancels in one way. -/
structure Willing (mode : CancelMode) (tick : R) (v : ScriptedVenue R) : Prop where
  distinct : (v.orders.map Prod.fst).Nodup
  tickSize : v.tickSize = tick
  cancelMode : v.cancelMode = mode
  keepInactive : v.keepInactive = false
  rejected : v.rejected = []
  failing : v.failing = []

private theorem Willing.refusal?_eq_none (willing : Willing mode tick v) (id : OrderId) :
    v.refusal? id = none := by
  simp [refusal?, willing.rejected, willing.failing]

/-- A willing venue enters every order. -/
theorem Willing.submit_eq (willing : Willing mode tick v) (request : OrderRequest R) :
    v.submit request = (.ok (), { v with
      orders := v.orders.put request.id request.accepted
      requestLog := v.requestLog.push (request, true) }) := by
  rw [ScriptedVenue.submit_eq, willing.refusal?_eq_none]

private theorem Willing.accepts_cancel (willing : Willing mode tick v) (cancels : mode ≠ .refuse)
    {id : OrderId} {order : RestingOrder R} (found : v.orders.get? id = some order)
    (active : order.isActive = true) (cancellable : order.cancellable = true) :
    (v.cancel id).1 = true := by
  simp [cancel, willing.cancelMode, cancels, found, active, cancellable]

variable [Scalar R]

private theorem Willing.orders_clearInactive (willing : Willing mode tick v) :
    (Venue.clearInactive v).orders = v.orders.activeOnly := by
  simp [Venue.clearInactive, willing.keepInactive]

/-- A willing venue that cancels orders is orderly. -/
theorem orderly_willing (cancels : mode ≠ .refuse) (tick : R) :
    Venue.Orderly (Willing mode tick) tick where
  good_clearTrades good := { good with }
  good_clearInactive good := { good with distinct := stable.good_clearInactive good.distinct }
  good_cancel id good := { good with distinct := stable.good_cancel id good.distinct }
  good_submit {v} request good := by
    have hdistinct := stable.good_submit request good.distinct
    simp only [Venue.submit, good.submit_eq] at hdistinct ⊢
    exact { good with distinct := hdistinct }
  distinct good := good.distinct
  tickSize good := good.tickSize
  clearTrades _ := List.Subset.refl _
  clearInactive {v} good := by
    intro entry mem
    simp only [Venue.active, Venue.orders, good.orders_clearInactive] at mem
    exact (OrderTable.mem_activeOnly.mp mem).1
  cancel {v} id _ := by
    intro entry mem
    simp only [Venue.active, Venue.orders, Venue.cancel, orders_cancel] at mem ⊢
    split at mem
    · split at mem
      · obtain ⟨hmem, hactive⟩ := OrderTable.mem_activeOnly.mp mem
        exact OrderTable.mem_activeOnly.mpr ⟨(List.mem_filter.mp hmem).1, hactive⟩
      · exact ((OrderTable.mem_activeOnly_adjust fun _ ↦ rfl).mp mem).1
    · exact mem
  cancelled {v id order} good mem cancellable := by
    obtain ⟨hmem, hactive⟩ := OrderTable.mem_activeOnly.mp mem
    have hfound : v.orders.get? id = some order := OrderTable.get?_of_mem good.distinct hmem
    have haccepted := good.accepts_cancel cancels hfound hactive cancellable
    intro entry left
    simp only [Venue.active, Venue.orders, Venue.cancel, orders_cancel, haccepted, if_true] at left
    split at left
    · have hleft := (OrderTable.mem_activeOnly.mp left).1
      exact of_decide_eq_true (List.mem_filter.mp hleft).2
    · exact ((OrderTable.mem_activeOnly_adjust fun _ ↦ rfl).mp left).2
  submit {v} request good := by
    simp only [Venue.submit, good.submit_eq]
    exact OrderTable.activeOnly_put_subset request.accepted

/-- A willing venue that cancels orders is obliging. -/
theorem obliging_willing (cancels : mode ≠ .refuse) (tick : R) :
    Venue.Obliging (Willing mode tick) where
  position_clearInactive _ := rfl
  position_cancel _ _ := rfl
  kept_clearInactive {v} id good := by
    simp only [Venue.kept, Venue.orders, good.orders_clearInactive]
    exact OrderTable.get?_activeOnly good.distinct id
  kept_cancel {v id order} good found active cancellable := by
    have hfound : v.orders.get? id = some order := found
    have haccepted := good.accepts_cancel cancels hfound active cancellable
    refine ⟨haccepted, ?_⟩
    simp only [Venue.kept, Venue.orders, Venue.cancel, get?_cancel, haccepted, true_and, if_true]
    split
    · exact .inl rfl
    · rw [hfound]
      exact .inr rfl
  kept_cancel_of_ne good ne := honest.kept_cancel_of_ne good.distinct ne
  accepts request good := by simp only [Venue.submit, good.submit_eq]
  kept_submit request id good := by
    simp only [Venue.kept, Venue.orders, Venue.submit, good.submit_eq]
    exact OrderTable.get?_put _ _ _ _

/-- A willing venue executes no order when it is entered. -/
theorem steady_willing : Venue.Steady (Willing (R := R) mode tick) := by
  intro v request good
  simp only [Venue.position, Venue.submit, good.submit_eq]

/-- A willing venue that removes what it cancels removes every open order that is cancelled. -/
theorem removes_willing : Venue.Removes (Willing (R := R) .remove tick) := by
  intro v id order good found active cancellable
  have haccepted := good.accepts_cancel (by decide) found active cancellable
  simp only [Venue.kept, Venue.orders, Venue.cancel, get?_cancel, haccepted, good.cancelMode]
  rfl

end ScriptedVenue

namespace OrderLimits

variable [Scalar R] {Good : V → Prop} {limits : OrderLimits R} {q : Quote R} {tick position : R}
  {side : Side} {v w : V}

/-- Passes with the same quote, one after the other. -/
def passes (limits : OrderLimits R) (q : Quote R) : Nat → V → V
  | 0, v => v
  | n + 1, v => (limits.reconcile q (passes limits q n v)).venue

/-- A pass that requests nothing, reports nothing and changes no order. -/
structure Quiet (limits : OrderLimits R) (q : Quote R) (v : V) : Prop where
  result : (limits.reconcile q v).result = .ok ⟨0, 0⟩
  events : (limits.reconcile q v).events = []
  kept (id : OrderId) : Venue.kept (limits.reconcile q v).venue id = Venue.kept v id

/-- All orders are active, and none is stale for the quote. -/
def Clean (q : Quote R) (tick : R) (v : V) : Prop :=
  ∀ id order, Venue.kept v id = some order → order.isActive = true ∧ q.isStale tick order = false

/-- Nothing is left to be done for a quote. -/
structure Settled (limits : OrderLimits R) (q : Quote R) (tick : R) (v : V) : Prop where
  clean : Clean q tick v
  complete (side : Side) : limits.missing? q tick (Venue.position v) side v = none

/-! ### Placing -/

omit [Venue V R] in
private theorem isStale_accepted {request : OrderRequest R}
    (wanted : limits.wanted? q tick position side = some request) :
    q.isStale tick request.accepted = false := by
  obtain ⟨price, quoted, -, rfl⟩ := wanted?_eq_some_iff.mp wanted
  have hlevel : q.level? tick side = some (OrderId.ofPrice price tick) := by
    rw [Quote.level?, quoted]
    rfl
  simp [Quote.isStale, request, OrderRequest.accepted, hlevel]

private theorem wanted_of_placed {request : OrderRequest R}
    (mem : request ∈ Event.placed (limits.placeSide q tick position side v).events) :
    limits.wanted? q tick position side = some request := by
  cases hmissing : limits.missing? q tick position side v with
  | none =>
    rw [placeSide_of_missing?_eq_none hmissing] at mem
    cases mem
  | some wanted =>
    rw [placeSide_of_missing?_eq_some hmissing] at mem
    obtain ⟨event, hevent, hplaced⟩ := List.mem_filterMap.mp mem
    rw [List.mem_singleton.mp hevent, Event.placed?_eq_some_iff] at hplaced
    rw [← (Event.orderRequested.inj hplaced).1]
    exact (missing?_eq_some_iff.mp hmissing).1

/-- Placing the quote of a side leaves the orders clean. -/
theorem Clean.placeSide (clean : Clean q tick v) (takes : Venue.TakesOrders Good) (good : Good v) :
    Clean q tick (limits.placeSide q tick position side v).venue := by
  intro id order found
  rcases (takes.enters_placeSide limits q tick position side good).kept_cases found with
    hbefore | ⟨request, hplaced, -, rfl⟩
  · exact clean id order hbefore
  · exact ⟨rfl, isStale_accepted (wanted_of_placed hplaced)⟩

private theorem missing?_eq_none_of_enters {xs : List (OrderRequest R)}
    (enters : Venue.Enters v w xs) (complete : limits.missing? q tick position side v = none) :
    limits.missing? q tick position side w = none := by
  rw [missing?_eq_none_iff] at complete ⊢
  intro request wanted
  have htaken := complete request wanted
  rw [Venue.has_eq_isSome_kept] at htaken ⊢
  obtain ⟨order, hfound⟩ := Option.isSome_iff_exists.mp htaken
  rw [enters.kept_of_kept hfound]
  rfl

/-- After placing its quote at an obliging venue a side lacks nothing. -/
theorem missing?_placeSide (obliging : Venue.Obliging Good) (good : Good v) :
    limits.missing? q tick position side (limits.placeSide q tick position side v).venue =
      none := by
  rw [missing?_eq_none_iff]
  intro request wanted
  obtain ⟨price, quoted, admitted, rfl⟩ := wanted?_eq_some_iff.mp wanted
  have hkept : Venue.kept (limits.placeSide q tick position side v).venue
      (OrderId.ofPrice price tick) = some _ := obliging.kept_placeSide good quoted admitted
  rw [Venue.has_eq_isSome_kept]
  exact Option.isSome_of_eq_some hkept

/-- Placing the quote of a side leaves the position as it is where orders are not executed at once.
-/
theorem position_placeSide_of_steady (steady : Venue.Steady Good) (good : Good v) :
    Venue.position (limits.placeSide q tick position side v).venue = Venue.position v := by
  cases hmissing : limits.missing? q tick position side v with
  | none => rw [placeSide_of_missing?_eq_none hmissing]
  | some request =>
    rw [placeSide_of_missing?_eq_some hmissing]
    exact steady request good

/-! ### Passes -/

section Passes

variable (obliging : Venue.Obliging Good) (orderly : Venue.Orderly Good tick)

include obliging orderly

private theorem cancels_of_fresh (good : Good v)
    (fresh : ∀ entry ∈ Venue.active v, q.isStale tick entry.2 = false) :
    cancels q v = ⟨0, Venue.clearInactive v, []⟩ := by
  have hnone : q.staleIds tick (Venue.orders (Venue.clearInactive v)) = [] := by
    rw [Quote.staleIds, List.map_eq_nil_iff, List.filter_eq_nil_iff]
    intro order mem
    obtain ⟨entry, hentry, rfl⟩ := List.mem_map.mp mem
    rw [fresh entry ((obliging.mem_orders_clearInactive orderly good).mp hentry)]
    exact Bool.false_ne_true
  rw [cancels, orderly.tickSize (orderly.good_clearInactive good), hnone]
  rfl

/-- When the stale orders are cancelled and only clean ones are left, the pass leaves nothing to do.
-/
theorem settled_reconcile (steady : Venue.Steady Good) (good : Good v)
    (clean : Clean q tick (cancels q v).venue) :
    limits.Settled q tick (limits.reconcile q v).venue := by
  obtain ⟨hcancels, -, -⟩ := orderly.active_cancels q good
  obtain ⟨hbid, -⟩ := orderly.active_bidPass limits q good
  have htick := orderly.tickSize (orderly.good_clearInactive good)
  obtain ⟨placed, hplaced⟩ : ∃ placed, (limits.bidPass q v).result = .ok placed :=
    obliging.placeSide_ok hcancels
  have hbids : limits.bidPass q v =
      limits.placeSide q tick (Venue.position (cancels q v).venue) .buy (cancels q v).venue := by
    rw [bidPass, htick]
  have hasks : limits.askPass q v =
      limits.placeSide q tick (Venue.position (cancels q v).venue) .sell
        (limits.bidPass q v).venue := by
    rw [askPass, htick]
  have henters := obliging.takesOrders.enters_placeSide limits q tick
    (Venue.position (cancels q v).venue) .sell hbid
  have hposition : Venue.position (limits.askPass q v).venue =
      Venue.position (cancels q v).venue := by
    rw [hasks, position_placeSide_of_steady steady hbid, hbids,
      position_placeSide_of_steady steady hcancels]
  rw [reconcile_of_bid_ok hplaced]
  constructor
  · have hclean : Clean q tick (limits.bidPass q v).venue := by
      rw [hbids]
      exact clean.placeSide obliging.takesOrders hcancels
    show Clean q tick (limits.askPass q v).venue
    rw [hasks]
    exact hclean.placeSide obliging.takesOrders hbid
  · intro side
    show limits.missing? q tick (Venue.position (limits.askPass q v).venue) side
      (limits.askPass q v).venue = none
    rw [hposition, hasks]
    cases side with
    | buy =>
      -- the bid was placed first and is not touched when the ask is placed
      apply missing?_eq_none_of_enters henters
      rw [hbids]
      exact missing?_placeSide obliging hcancels
    | sell => exact missing?_placeSide obliging hbid

/-- Where nothing is left to be done, a pass does nothing, and still nothing is left to be done. -/
theorem quiet_of_settled (good : Good v) (settled : limits.Settled q tick v) :
    limits.Quiet q v ∧ limits.Settled q tick (limits.reconcile q v).venue := by
  have htick := orderly.tickSize (orderly.good_clearInactive good)
  have hcancels : cancels q v = ⟨0, Venue.clearInactive v, []⟩ := by
    apply cancels_of_fresh obliging orderly good
    rintro ⟨id, order⟩ mem
    exact (settled.clean id order ((orderly.mem_active good).mp mem).1).2
  have hkept (id : OrderId) : Venue.kept (Venue.clearInactive v) id = Venue.kept v id := by
    rw [obliging.kept_clearInactive id good]
    cases hfound : Venue.kept v id with
    | none => rfl
    | some order => simp [Option.filter, (settled.clean id order hfound).1]
  have hplaceSide (side : Side) : limits.placeSide q tick (Venue.position (Venue.clearInactive v))
      side (Venue.clearInactive v) = ⟨.ok false, Venue.clearInactive v, []⟩ := by
    apply placeSide_of_missing?_eq_none
    rw [Venue.missing?_congr hkept, obliging.position_clearInactive good]
    exact settled.complete side
  have hbid : limits.bidPass q v = ⟨.ok false, Venue.clearInactive v, []⟩ := by
    rw [bidPass, htick, hcancels, hplaceSide]
  have hask : limits.askPass q v = ⟨.ok false, Venue.clearInactive v, []⟩ := by
    rw [askPass, htick, hcancels, hbid, hplaceSide]
  have hpass : limits.reconcile q v = ⟨.ok ⟨0, 0⟩, Venue.clearInactive v, []⟩ := by
    have hok : (limits.bidPass q v).result = .ok false := by rw [hbid]
    rw [reconcile_of_bid_ok hok, hcancels, hbid, hask]
    rfl
  rw [hpass]
  refine ⟨⟨by rw [hpass], by rw [hpass], fun id ↦ ?_⟩, ?_, fun side ↦ ?_⟩
  · rw [hpass]
    exact hkept id
  · intro id order found
    rw [hkept] at found
    exact settled.clean id order found
  · show limits.missing? q tick (Venue.position (Venue.clearInactive v)) side _ = none
    rw [Venue.missing?_congr hkept, obliging.position_clearInactive good]
    exact settled.complete side

omit obliging in
/-- After a pass no active order is stale. -/
theorem fresh_reconcile (good : Good v) (owned : Venue.Owned v) :
    ∀ entry ∈ Venue.active (limits.reconcile q v).venue, q.isStale tick entry.2 = false := by
  obtain ⟨-, hsub, hfresh⟩ := orderly.active_cancels q good
  obtain ⟨-, hcases⟩ := orderly.active_reconcile limits q good
  intro entry mem
  rcases hcases entry mem with hold | ⟨side, price, hquoted, hadmitted, rfl⟩
  · cases hcancellable : entry.2.cancellable with
    | false => simp [Quote.isStale, hcancellable]
    | true => exact hfresh entry hold hcancellable (owned entry (hsub hold))
  · exact isStale_accepted (wanted?_eq_some_iff.mpr ⟨price, hquoted, hadmitted, rfl⟩)

/-- Where cancelled orders are removed, only clean ones are left when the stale ones are cancelled.
-/
theorem clean_cancels_of_removes (removes : Venue.Removes Good) (good : Good v)
    (owned : Venue.Owned v) : Clean q tick (cancels q v).venue := by
  intro id order found
  by_cases hold : ∃ before, (id, before) ∈ Venue.active v
  · obtain ⟨before, hmem⟩ := hold
    have hactive := ((orderly.mem_active good).mp hmem).2
    cases hstale : q.isStale tick before with
    | true =>
      obtain ⟨w, hw, hopen, hleft⟩ :=
        obliging.kept_cancels_of_stale orderly good owned hmem hstale
      rw [hleft, removes hw hopen hactive (Bool.and_eq_true_iff.mp hstale).1] at found
      cases found
    | false =>
      rw [obliging.kept_cancels_of_fresh orderly good owned hmem hstale] at found
      obtain rfl := Option.some.inj found
      exact ⟨hactive, hstale⟩
  · have hfree : ∀ before, (id, before) ∉ Venue.active v := fun before mem ↦ hold ⟨before, mem⟩
    rw [obliging.kept_cancels_of_free orderly good owned hfree] at found
    cases found

omit obliging in
private theorem good_passes (good : Good v) (n : Nat) : Good (limits.passes q n v) := by
  induction n with
  | zero => exact good
  | succ n ih => exact (orderly.active_reconcile limits q ih).1

/-- Once nothing is left to be done, all later passes are quiet. -/
theorem quiet_of_settled_passes (good : Good v) {m : Nat}
    (settled : limits.Settled q tick (limits.passes q m v)) (n : Nat) (later : m ≤ n) :
    limits.Quiet q (limits.passes q n v) := by
  have hsettled (k : Nat) : limits.Settled q tick (limits.passes q (m + k) v) := by
    induction k with
    | zero => exact settled
    | succ k ih => exact (quiet_of_settled obliging orderly (good_passes orderly good _) ih).2
  obtain ⟨k, rfl⟩ := Nat.exists_eq_add_of_le later
  exact (quiet_of_settled obliging orderly (good_passes orderly good _) (hsettled k)).1

end Passes

/-- At an obliging venue that keeps its orders under their own identifiers, whatever orders these
are, every pass with one quote but the first two is quiet, and the second one is too where cancelled
orders are removed. -/
theorem passes_quiet (limits : OrderLimits R) (q : Quote R) (obliging : Venue.Obliging Good)
    (orderly : Venue.Orderly Good tick) (steady : Venue.Steady Good) (good : Good v)
    (own : ∀ entry ∈ Venue.orders v, entry.2.id = entry.1) :
    (∀ n, 2 ≤ n → limits.Quiet q (limits.passes q n v)) ∧
      (Venue.Removes Good → ∀ n, 1 ≤ n → limits.Quiet q (limits.passes q n v)) := by
  have howned : Venue.Owned v := fun entry mem ↦ own entry (OrderTable.mem_activeOnly.mp mem).1
  constructor
  · apply quiet_of_settled_passes obliging orderly good
    have hgood : Good (limits.passes q 1 v) := good_passes orderly good 1
    have hcancels := cancels_of_fresh obliging orderly hgood
      (fresh_reconcile orderly good howned)
    apply settled_reconcile obliging orderly steady hgood
    rw [hcancels]
    intro id order found
    rw [show Venue.kept (Venue.clearInactive (limits.passes q 1 v)) id = _ from
      obliging.kept_clearInactive id hgood, Option.filter_eq_some_iff] at found
    have hmem := (orderly.mem_active hgood).mpr found
    exact ⟨found.2, fresh_reconcile orderly good howned _ hmem⟩
  · intro removes
    apply quiet_of_settled_passes obliging orderly good
    apply settled_reconcile obliging orderly steady good
    exact clean_cancels_of_removes obliging orderly removes good howned

/-- A bid that moves to the level of an order to sell. Where that order is marked the bid waits for
the second pass, and where it is removed the first pass places both quotes. -/
theorem passes_quiet_crossing :
    let venue (mode : CancelMode) : ScriptedVenue Float :=
      { ScriptedVenue.idle 1 with
        orders := [(⟨102⟩, ⟨⟨102⟩, .sell, 102, 1, .active, true⟩)], cancelMode := mode }
    let q : Quote Float := ⟨1, 0, 102, 104⟩
    let limits : OrderLimits Float := ⟨5, 1⟩
    let requested (v : ScriptedVenue Float) :=
      (Event.requests (limits.reconcile q v).events).map OrderRequest.id
    requested (venue .mark) = [⟨104⟩] ∧
      requested (limits.passes q 1 (venue .mark)) = [⟨102⟩] ∧
      (∀ n, 2 ≤ n → limits.Quiet q (limits.passes q n (venue .mark))) ∧
      requested (venue .remove) = [⟨102⟩, ⟨104⟩] ∧
      ∀ n, 1 ≤ n → limits.Quiet q (limits.passes q n (venue .remove)) := by
  intro venue q limits requested
  have hwilling (mode : CancelMode) : ScriptedVenue.Willing mode 1 (venue mode) :=
    ⟨List.pairwise_singleton _ _, rfl, rfl, rfl, rfl, rfl⟩
  have hown (mode : CancelMode) : ∀ entry ∈ (venue mode).orders, entry.2.id = entry.1 := by
    intro entry mem
    rw [List.mem_singleton.mp mem]
  refine ⟨?_, ?_, ?_, ?_, ?_⟩
  · decide +kernel
  · decide +kernel
  · exact (limits.passes_quiet q (ScriptedVenue.obliging_willing (by decide) 1)
      (ScriptedVenue.orderly_willing (by decide) 1) ScriptedVenue.steady_willing
      (hwilling .mark) (hown .mark)).1
  · decide +kernel
  · exact (limits.passes_quiet q (ScriptedVenue.obliging_willing (by decide) 1)
      (ScriptedVenue.orderly_willing (by decide) 1) ScriptedVenue.steady_willing
      (hwilling .remove) (hown .remove)).2 ScriptedVenue.removes_willing

end OrderLimits

end MarketMaking
