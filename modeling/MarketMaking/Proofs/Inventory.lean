import MarketMaking.Proofs.Binary64.Order
import MarketMaking.Proofs.Levels

/-!
# The inventory over a session

The limit of the inventory is looked at only when an order is placed, and no resting order is
cancelled when the limit is reached. It is still passed by less than one order: an order on a side
rests only while that side may add, and as no side has two, the inventory has moved on that side
only when no order is left there.
-/

namespace MarketMaking

open Binary64 (value)

variable {V : Type} [Venue V Float]

namespace Venue

/-- A venue that moves the inventory in no operation that the strategy calls. -/
structure Settled (Good : V → Prop) : Prop where
  clearTrades {v : V} : Good v → Venue.position (Venue.clearTrades v) = Venue.position v
  clearInactive {v : V} : Good v → Venue.position (Venue.clearInactive v) = Venue.position v
  cancel {v : V} (id : OrderId) : Good v → Venue.position (Venue.cancel v id).2 = Venue.position v
  submit {v : V} (request : OrderRequest Float) :
    Good v → Venue.position (Venue.submit v request).2 = Venue.position v

/-- What the complete execution of an order adds to the inventory. -/
def change (order : RestingOrder Float) : ℚ :=
  match order.side with
  | .buy => value order.qty
  | .sell => -value order.qty

/-- One thing that the market may do: nothing to the inventory, or the complete execution of one
active order, which adds its quantity exactly. Neither enters an order. -/
inductive Trades (Good : V → Prop) (v w : V) : Prop where
  | quiet : Good w → active w ⊆ active v → Venue.position w = Venue.position v → Trades Good v w
  | fill {id : OrderId} {order : RestingOrder Float} : Good w → active w ⊆ active v →
      (id, order) ∈ active v → (∀ entry ∈ active w, entry.1 ≠ id) →
      (Venue.position w).isFinite = true →
      value (Venue.position w) = value (Venue.position v) + change order → Trades Good v w

/-- The inventory is within `limit` by less than `qty`, and a side has active orders, of quantity
`qty`, only while the inventory is within the limit on it. -/
structure Capped (limit qty : Float) (v : V) : Prop where
  finite : (Venue.position v).isFinite = true
  low : -(value limit + value qty) < value (Venue.position v)
  high : value (Venue.position v) < value limit + value qty
  sized : ∀ entry ∈ active v, entry.2.qty = qty
  buy : ∀ entry ∈ active v, entry.2.side = .buy → value (Venue.position v) < value limit
  sell : ∀ entry ∈ active v, entry.2.side = .sell → -value limit < value (Venue.position v)

variable {Good : V → Prop} {tick limit qty : Float} {v w : V}

private theorem capped_of_flat (empty : Venue.orders v = [])
    (finite : (Venue.position v).isFinite = true)
    (flat : value (Venue.position v) = 0) (hlimit : 0 < value limit) (hqty : 0 < value qty) :
    Capped limit qty v := by
  have hnone (entry) : entry ∉ active v := by
    rw [active, empty]
    exact List.not_mem_nil
  constructor
  · exact finite
  · rw [flat]
    linarith
  · rw [flat]
    linarith
  · intro entry mem
    exact absurd mem (hnone entry)
  · intro entry mem
    exact absurd mem (hnone entry)
  · intro entry mem
    exact absurd mem (hnone entry)

/-- Trades are executions. -/
theorem Trades.executes (move : Trades Good v w) : Executes Good v w := by
  rcases move with ⟨hgood, hsub, -⟩ | ⟨hgood, hsub, -, -, -, -⟩
  · exact ⟨hgood, fun entry mem ↦ ⟨entry.2.qty, hsub mem⟩⟩
  · exact ⟨hgood, fun entry mem ↦ ⟨entry.2.qty, hsub mem⟩⟩

/-- Trades keep the inventory within its limits, as long as no side has two orders. -/
theorem Capped.trades (capped : Capped limit qty v) (one : OneASide v) (pos : 0 < value qty)
    (move : Trades Good v w) : Capped limit qty w := by
  rcases move with ⟨-, hsub, hposition⟩ | @⟨id, order, -, hsub, hmem, hgone, hfinite, hvalue⟩
  · constructor
    · rw [hposition]
      exact capped.finite
    · rw [hposition]
      exact capped.low
    · rw [hposition]
      exact capped.high
    · intro entry mem
      exact capped.sized entry (hsub mem)
    · intro entry mem
      rw [hposition]
      exact capped.buy entry (hsub mem)
    · intro entry mem
      rw [hposition]
      exact capped.sell entry (hsub mem)
  · have hsized : ∀ entry ∈ active w, entry.2.qty = qty := by
      intro entry mem
      exact capped.sized entry (hsub mem)
    have hqty : order.qty = qty := capped.sized _ hmem
    have hlow := capped.low
    have hhigh := capped.high
    -- The executed order was the only one on its side.
    have hother : ∀ entry ∈ active w, entry.2.side ≠ order.side := by
      intro entry mem same
      exact hgone entry mem (one entry (hsub mem) _ hmem same)
    cases hside : order.side with
    | buy =>
      have hbuy := capped.buy _ hmem hside
      rw [change, hside] at hvalue
      simp only [hqty] at hvalue
      rw [hside] at hother
      refine ⟨hfinite, by linarith, by linarith, hsized, ?_, ?_⟩
      · intro entry mem same
        exact absurd same (hother entry mem)
      · intro entry mem same
        have hsell := capped.sell entry (hsub mem) same
        linarith
    | sell =>
      have hsell := capped.sell _ hmem hside
      rw [change, hside] at hvalue
      simp only [hqty] at hvalue
      rw [hside] at hother
      refine ⟨hfinite, by linarith, by linarith, hsized, ?_, ?_⟩
      · intro entry mem same
        have hbuy := capped.buy entry (hsub mem) same
        linarith
      · intro entry mem same
        exact absurd same (hother entry mem)

namespace Settled

private theorem position_cancelAll (settled : Settled Good) (orderly : Orderly Good tick)
    (ids : List OrderId) {v : V} (good : Good v) :
    Venue.position (cancelAll ids v).venue = Venue.position v := by
  apply (cancelAll_invariant (P := fun w ↦ Good w ∧ position w = position v) _ ids _).2
  · rintro w id ⟨hgood, same⟩
    exact ⟨orderly.good_cancel id hgood, (settled.cancel id hgood).trans same⟩
  · exact ⟨good, rfl⟩

/-- The cancellations of a pass move no inventory. -/
theorem position_cancels (settled : Settled Good) (orderly : Orderly Good tick) (q : Quote Float)
    {v : V} (good : Good v) :
    Venue.position (OrderLimits.cancels q v).venue = Venue.position v := by
  unfold OrderLimits.cancels
  rw [settled.position_cancelAll orderly _ (orderly.good_clearInactive good)]
  exact settled.clearInactive good

private theorem position_placeSide (settled : Settled Good) (limits : OrderLimits Float)
    (q : Quote Float) (tick position : Float) (side : Side) {v : V} (good : Good v) :
    Venue.position (limits.placeSide q tick position side v).venue = Venue.position v := by
  cases hmissing : limits.missing? q tick position side v with
  | none => rw [OrderLimits.placeSide_of_missing?_eq_none hmissing]
  | some request =>
    rw [OrderLimits.placeSide_of_missing?_eq_some hmissing]
    exact settled.submit request good

/-- A pass, completed or not, moves no inventory. -/
theorem position_reconcile (settled : Settled Good) (orderly : Orderly Good tick)
    (limits : OrderLimits Float) (q : Quote Float) {v : V} (good : Good v) :
    Venue.position (limits.reconcile q v).venue = Venue.position v := by
  have hcancels := (orderly.active_cancels q good).1
  have hbid : Venue.position (limits.bidPass q v).venue = Venue.position v := by
    rw [OrderLimits.bidPass, settled.position_placeSide limits q _ _ _ hcancels]
    exact settled.position_cancels orderly q good
  rcases OrderLimits.venue_reconcile limits q v with hend | hend
  · rw [hend]
    exact hbid
  · obtain ⟨hgood, -⟩ := orderly.active_bidPass limits q good
    rw [hend, OrderLimits.askPass, settled.position_placeSide limits q _ _ _ hgood]
    exact hbid

/-- The pass of a step, completed or not, moves no inventory. -/
theorem position_pass (settled : Settled Good) (orderly : Orderly Good tick) (s : Strategy Float)
    {v : V} (good : Good v) : Venue.position (s.pass v).venue = Venue.position v :=
  (settled.position_reconcile orderly _ _ (orderly.good_clearTrades good)).trans
    (settled.clearTrades good)

/-- A step, whatever it comes to, moves no inventory. -/
theorem position_step (settled : Settled Good) (orderly : Orderly Good tick) (s : Strategy Float)
    {v : V} (good : Good v) : Venue.position (s.step v).venue = Venue.position v := by
  rcases s.venue_step v with hsame | hpass
  · rw [hsame]
  · rw [hpass]
    exact settled.position_pass orderly s good

end Settled

omit [Venue V Float] in
private theorem lt_of_admits_buy {limits : OrderLimits Float} {position : Float}
    (admitted : limits.admits position .buy = true) :
    value position < value limits.maxPosition :=
  (Binary64.lt_iff.mp admitted).2.2

omit [Venue V Float] in
private theorem lt_of_admits_sell (limits : OrderLimits Float) {position : Float}
    (known : limits.maxPosition.isNaN = false) (admitted : limits.admits position .sell = true) :
    -value limits.maxPosition < value position := by
  rw [← (Binary64.value_neg known).2]
  exact (Binary64.lt_iff.mp admitted).2.2

/-- A pass of a step, completed or not, keeps the inventory within its limits. -/
theorem Capped.pass {s : Strategy Float} (orderly : Orderly Good tick) (settled : Settled Good)
    (known : s.config.maxPosition.isNaN = false) (good : Good v)
    (capped : Capped s.config.maxPosition s.config.orderQty v) :
    Capped s.config.maxPosition s.config.orderQty (s.pass v).venue := by
  have hgood := orderly.good_clearTrades good
  obtain ⟨-, hcancels, -⟩ := orderly.active_cancels (s.quoted v).1 hgood
  have hsub : active (OrderLimits.cancels (s.quoted v).1 (Venue.clearTrades v)).venue ⊆ active v :=
    List.Subset.trans hcancels (orderly.clearTrades good)
  have hposition : Venue.position (s.pass v).venue = Venue.position v :=
    settled.position_pass orderly s good
  have hseen : Venue.position (OrderLimits.cancels (s.quoted v).1 (Venue.clearTrades v)).venue =
      Venue.position v :=
    (settled.position_cancels orderly _ hgood).trans (settled.clearTrades good)
  obtain ⟨-, hcases⟩ := orderly.active_reconcile s.config.orderLimits (s.quoted v).1 hgood
  rw [hseen] at hcases
  constructor
  · rw [hposition]
    exact capped.finite
  · rw [hposition]
    exact capped.low
  · rw [hposition]
    exact capped.high
  · intro entry mem
    rcases hcases entry mem with hold | ⟨side, price, -, -, rfl⟩
    · exact capped.sized entry (hsub hold)
    · rfl
  · intro entry mem same
    rw [hposition]
    rcases hcases entry mem with hold | ⟨side, price, -, hadmits, rfl⟩
    · exact capped.buy entry (hsub hold) same
    · have hside : side = .buy := same
      rw [hside] at hadmits
      have hlt := lt_of_admits_buy hadmits
      exact hlt
  · intro entry mem same
    rw [hposition]
    rcases hcases entry mem with hold | ⟨side, price, -, hadmits, rfl⟩
    · exact capped.sell entry (hsub hold) same
    · have hside : side = .sell := same
      rw [hside] at hadmits
      have hlt := lt_of_admits_sell s.config.orderLimits known hadmits
      exact hlt

end Venue

/-! ### Sessions -/

namespace Session

variable {Good : V → Prop} {tick : Float} {c : Config Float} {v₀ v : V} {s : Strategy Float}

/-- In a session the inventory is within its limits. -/
theorem capped (session : Session (Venue.Trades Good) c v₀ s v)
    (orderly : Venue.Orderly Good tick) (settled : Venue.Settled Good) (good : Good v₀)
    (empty : Venue.orders v₀ = []) (finite : (Venue.position v₀).isFinite = true)
    (flat : value (Venue.position v₀) = 0) : Venue.Capped c.maxPosition c.orderQty v := by
  obtain ⟨hknown, hmax⟩ := Binary64.isPositive_iff.mp session.accepted.maxPosition
  obtain ⟨-, hqty⟩ := Binary64.isPositive_iff.mp session.accepted.orderQty
  have hall : (Good v ∧ Venue.Keyed tick v ∧ Venue.OneASide v) ∧
      Venue.Capped c.maxPosition c.orderQty v := by
    apply session.venue_invariant (P := fun v ↦ (Good v ∧ Venue.Keyed tick v ∧ Venue.OneASide v) ∧
      Venue.Capped c.maxPosition c.orderQty v)
    · exact ⟨⟨good, Venue.keyed_of_orders_eq_nil empty, Venue.oneASide_of_orders_eq_nil empty⟩,
        Venue.capped_of_flat empty finite flat hmax hqty⟩
    · rintro v w ⟨⟨-, hkeyed, hone⟩, hcapped⟩ move
      exact ⟨⟨move.executes.1, hkeyed.executes move.executes, hone.executes move.executes⟩,
        hcapped.trades hone hqty move⟩
    · rintro s v rfl ⟨⟨hgood, hkeyed, hone⟩, hcapped⟩
      rcases s.venue_step v with hsame | hpass
      · rw [hsame]
        exact ⟨⟨hgood, hkeyed, hone⟩, hcapped⟩
      · obtain ⟨hgood', hkeyed', hquoted⟩ := orderly.atQuote_pass s hgood hkeyed
        rw [hpass]
        exact ⟨⟨hgood', hkeyed', hquoted.oneASide⟩, hcapped.pass orderly settled hknown hgood⟩
  exact hall.2

/-- Whatever is traded, refused or fails, the inventory passes its limit on either side by less than
one order, and an order rests on a side only while the inventory is within the limit on it. -/
theorem inventory_bounds (session : Session (Venue.Trades Good) c v₀ s v)
    (orderly : Venue.Orderly Good tick) (settled : Venue.Settled Good) (good : Good v₀)
    (empty : Venue.orders v₀ = []) (finite : (Venue.position v₀).isFinite = true)
    (flat : value (Venue.position v₀) = 0) :
    (Venue.position v).isFinite = true ∧
      -(value c.maxPosition + value c.orderQty) < value (Venue.position v) ∧
      value (Venue.position v) < value c.maxPosition + value c.orderQty ∧
      (∀ entry ∈ Venue.active v, entry.2.side = .buy →
        value (Venue.position v) < value c.maxPosition) ∧
      (∀ entry ∈ Venue.active v, entry.2.side = .sell →
        -value c.maxPosition < value (Venue.position v)) := by
  have hcapped := session.capped orderly settled good empty finite flat
  exact ⟨hcapped.finite, hcapped.low, hcapped.high, hcapped.buy, hcapped.sell⟩

end Session

/-! ### The replaying venue -/

namespace ReplayVenue

variable {tick : Float} {v : ReplayVenue Float}

/-- The replaying venue moves the inventory on executions only. -/
theorem settled (tick : Float) : Venue.Settled (Sound tick) where
  clearTrades _ := rfl
  clearInactive _ := rfl
  cancel id _ := by
    simp only [Venue.cancel, ReplayVenue.cancel]
    split <;> rfl
  submit request _ := by
    simp only [Venue.submit, ReplayVenue.submit]
    split <;> rfl

/-- Taking the next tick is no trade of the strategy. -/
theorem trades_elapse (sound : Sound tick v) (duration : Int) :
    Venue.Trades (Sound tick) v (v.elapse duration).2 := by
  unfold elapse
  split
  · exact .quiet sound (List.Subset.refl _) rfl
  · exact .quiet sound (List.Subset.refl _) rfl

/-- To execute what is active under an identifier, if anything, is a trade when its quantity is
added exactly. -/
theorem trades_fill (sound : Sound tick v) (id : OrderId)
    (exact : ∀ order, (id, order) ∈ Venue.active v →
      (order.inventoryAfter v.position).isFinite = true ∧
        value (order.inventoryAfter v.position) = value v.position + Venue.change order) :
    Venue.Trades (Sound tick) v (v.fill id) := by
  have hquiet : Venue.Trades (Sound tick) v v := .quiet sound (List.Subset.refl _) rfl
  unfold fill
  cases found : v.orders.get? id with
  | none => exact hquiet
  | some order =>
    dsimp only
    split
    · next isActive =>
      have hmem : (id, order) ∈ Venue.active v :=
        OrderTable.mem_activeOnly.mpr ⟨OrderTable.mem_of_get? found, isActive⟩
      have hleft (entry) : entry ∈ (v.orders.adjust id RestingOrder.filled).activeOnly ↔
          entry ∈ v.orders.activeOnly ∧ entry.1 ≠ id :=
        OrderTable.mem_activeOnly_adjust fun _ ↦ rfl
      obtain ⟨hfinite, hvalue⟩ := exact order hmem
      refine .fill ⟨?_, sound.2⟩ ?_ hmem ?_ hfinite hvalue
      · rw [OrderTable.keys_adjust]
        exact sound.1
      · intro entry mem
        exact ((hleft entry).mp mem).1
      · intro entry mem
        exact ((hleft entry).mp mem).2
    · exact hquiet

private theorem position_fill (sound : Sound tick v) {id : OrderId} {order : RestingOrder Float}
    (mem : (id, order) ∈ Venue.active v) :
    (v.fill id).position = order.inventoryAfter v.position := by
  obtain ⟨hmem, isActive⟩ := OrderTable.mem_activeOnly.mp mem
  unfold fill
  rw [OrderTable.get?_of_mem sound.1 hmem]
  dsimp only
  rw [if_pos isActive]

private theorem position_elapse (v : ReplayVenue Float) (duration : Int) :
    (v.elapse duration).2.position = v.position := by
  unfold elapse
  split <;> rfl

end ReplayVenue

private theorem inventoryAfter_zero {order : RestingOrder Float} (one : order.qty = 1) :
    (order.inventoryAfter 0).isFinite = true ∧
      value (order.inventoryAfter 0) = Venue.change order := by
  cases hside : order.side with
  | buy =>
    simp only [RestingOrder.inventoryAfter, Venue.change, hside, one]
    have hsum : (0 : Float) + 1 = 1 := rfl
    rw [hsum]
    exact ⟨by decide +kernel, rfl⟩
  | sell =>
    simp only [RestingOrder.inventoryAfter, Venue.change, hside, one]
    have hdifference : (0 : Float) - 1 = -1 := rfl
    rw [hdifference]
    exact ⟨by decide +kernel, (Binary64.value_neg (by decide +kernel)).2⟩

/-- Four steps at a venue where the second fit falls with the distance. After the third, what rests
under the level 97 is executed: when this is run, a bid of the strategy. No proof evaluates the
logarithm of a double, but any order there is of the configured quantity, and the inventory has
moved by it. -/
theorem Session.inventory_bounds_filled :
    let first := (Strategy.fresh Config.brief).step ReplayVenue.falling
    let second := first.strategy.step (first.venue.elapse 100).2
    let third := second.strategy.step (second.venue.elapse 100).2
    let filled := third.venue.fill ⟨97⟩
    let fourth := third.strategy.step (filled.elapse 100).2
    Venue.Trades (ReplayVenue.Sound 0.5) third.venue filled ∧
      (∀ order, (⟨97⟩, order) ∈ Venue.active third.venue →
        order.qty = 1 ∧ value (Venue.position fourth.venue) = Venue.change order) ∧
      (Venue.position fourth.venue).isFinite = true ∧
      -(value Config.brief.maxPosition + value Config.brief.orderQty) <
        value (Venue.position fourth.venue) ∧
      value (Venue.position fourth.venue) <
        value Config.brief.maxPosition + value Config.brief.orderQty ∧
      (∀ entry ∈ Venue.active fourth.venue, entry.2.side = .buy →
        value (Venue.position fourth.venue) < value Config.brief.maxPosition) ∧
      (∀ entry ∈ Venue.active fourth.venue, entry.2.side = .sell →
        -value Config.brief.maxPosition < value (Venue.position fourth.venue)) := by
  intro first second third filled fourth
  let market := Venue.Trades (ReplayVenue.Sound 0.5)
  have hempty : Venue.orders ReplayVenue.falling = [] := rfl
  have hsound : ReplayVenue.Sound 0.5 ReplayVenue.falling := ⟨List.nodup_nil, rfl⟩
  have horderly : Venue.Orderly (ReplayVenue.Sound 0.5) 0.5 := ReplayVenue.orderly 0.5
  have hsettled := ReplayVenue.settled 0.5
  have hstays {s : Strategy Float} {v : ReplayVenue Float}
      (session : Session market Config.brief ReplayVenue.falling s v) :
      ReplayVenue.Sound 0.5 v :=
    ((session.mono fun _ _ move ↦ move.executes).keyed horderly hsound hempty).1
  have hticks {s : Strategy Float} {v : ReplayVenue Float}
      (session : Session market Config.brief ReplayVenue.falling s v) :
      Session market Config.brief ReplayVenue.falling s (v.elapse 100).2 :=
    session.market (ReplayVenue.trades_elapse (hstays session) 100)
  have hfirst : Session market Config.brief ReplayVenue.falling first.strategy first.venue :=
    .step (.start Config.start_brief)
  have hsecond : Session market Config.brief ReplayVenue.falling second.strategy second.venue :=
    .step (hticks hfirst)
  have hthird : Session market Config.brief ReplayVenue.falling third.strategy third.venue :=
    .step (hticks hsecond)
  -- steps and ticks leave the inventory at zero
  have hposition : third.venue.position = 0 := by
    have h₁ : first.venue.position = 0 := hsettled.position_step horderly _ hsound
    have h₂ : second.venue.position = (first.venue.elapse 100).2.position :=
      hsettled.position_step horderly _ (hstays (hticks hfirst))
    have h₃ : third.venue.position = (second.venue.elapse 100).2.position :=
      hsettled.position_step horderly _ (hstays (hticks hsecond))
    rw [h₃, ReplayVenue.position_elapse, h₂, ReplayVenue.position_elapse, h₁]
  have hvalue : value 0 = 0 := Binary64.value_ofInt_of_abs_le (n := 0) (by norm_num)
  have hcapped : Venue.Capped Config.brief.maxPosition Config.brief.orderQty third.venue :=
    hthird.capped horderly hsettled hsound hempty (by decide +kernel) hvalue
  have hexact (order) (mem : (⟨97⟩, order) ∈ Venue.active third.venue) :
      (order.inventoryAfter third.venue.position).isFinite = true ∧
        value (order.inventoryAfter third.venue.position) =
          value third.venue.position + Venue.change order := by
    rw [hposition, hvalue, zero_add]
    exact inventoryAfter_zero (hcapped.sized _ mem)
  have hfill : market third.venue filled := ReplayVenue.trades_fill (hstays hthird) ⟨97⟩ hexact
  have hfilled := hticks (.market hthird hfill)
  have hfourth : Session market Config.brief ReplayVenue.falling fourth.strategy fourth.venue :=
    .step hfilled
  have hmoved : fourth.venue.position = filled.position :=
    (hsettled.position_step horderly _ (hstays hfilled)).trans (filled.position_elapse 100)
  refine ⟨hfill, fun order mem ↦ ⟨hcapped.sized _ mem, ?_⟩,
    hfourth.inventory_bounds horderly hsettled hsound hempty (by decide +kernel) hvalue⟩
  have hvenue : Venue.position fourth.venue = order.inventoryAfter third.venue.position :=
    hmoved.trans (ReplayVenue.position_fill (hstays hthird) mem)
  rw [hvenue, hposition]
  exact (inventoryAfter_zero (hcapped.sized _ mem)).2

end MarketMaking
