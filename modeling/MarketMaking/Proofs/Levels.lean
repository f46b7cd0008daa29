import MarketMaking.Proofs.Exact
import MarketMaking.Proofs.OrderlyVenues
import MarketMaking.Proofs.Session

/-!
# One order a side, at the latest quote

The orders of a strategy rest under their own price levels, whatever is executed or refused. A pass
cancels all of them that are not at the quote of their side, so that what is active after it rests
at the quote, and of two active orders on one side both would be kept under the level of that quote.
-/

namespace MarketMaking

variable {R V : Type} [Scalar R] [Venue V R]

/-- The quote that a step recorded. -/
def StepRecord.quote (row : StepRecord R) : Quote R :=
  ⟨row.halfSpread, row.skew, row.bidPrice, row.askPrice⟩

namespace Venue

/-- The market moves the venue from `v` to `w` and may execute orders, wholly or in part. It enters
none. -/
def Executes (Good : V → Prop) (v w : V) : Prop :=
  Good w ∧ ∀ entry ∈ active w, ∃ qty : R, (entry.1, { entry.2 with qty }) ∈ active v

/-- Every active order can be cancelled and is kept under its identifier, the level of its price. -/
def Keyed (tick : R) (v : V) : Prop :=
  ∀ entry ∈ active v, entry.2.cancellable = true ∧ entry.2.id = entry.1 ∧
    OrderId.ofPrice entry.2.price tick = entry.1

/-- Every active order is kept under its own identifier. -/
def Owned (v : V) : Prop := ∀ entry ∈ active v, entry.2.id = entry.1

/-- Every active order is kept under the level quoted on its side. -/
def AtQuote (q : Quote R) (tick : R) (v : V) : Prop :=
  ∀ entry ∈ active v, q.level? tick entry.2.side = some entry.1

/-- No two active orders of one side are kept under different identifiers. -/
def OneASide (v : V) : Prop :=
  ∀ x ∈ active v, ∀ y ∈ active v, x.2.side = y.2.side → x.1 = y.1

/-- An order that is kept under the level of its price is kept under its own identifier. -/
theorem Keyed.owned {tick : R} {v : V} (keyed : Keyed tick v) : Owned v :=
  fun entry mem ↦ (keyed entry mem).2.1

section Without

variable {tick : R} {v w : V}

/-- Without orders all levels are respected. -/
theorem keyed_of_orders_eq_nil (empty : Venue.orders v = []) : Keyed tick v := by
  intro entry mem
  rw [active, empty] at mem
  cases mem

omit [Scalar R] in
/-- Without orders no side has two. -/
theorem oneASide_of_orders_eq_nil (empty : Venue.orders v = []) : OneASide v := by
  intro x mem
  rw [active, empty] at mem
  cases mem

end Without

section Execution

variable {Good : V → Prop} {tick : R} {v w : V}

/-- Executions leave the active orders under their own levels. -/
theorem Keyed.executes (keyed : Keyed tick v) (move : Executes Good v w) : Keyed tick w := by
  intro entry mem
  obtain ⟨qty, hmem⟩ := move.2 entry mem
  have hkeyed := keyed _ hmem
  exact hkeyed

omit [Scalar R] in
/-- Executions bring no second order to a side. -/
theorem OneASide.executes (one : OneASide v) (move : Executes Good v w) : OneASide w := by
  intro x hx y hy same
  obtain ⟨_, hx'⟩ := move.2 x hx
  obtain ⟨_, hy'⟩ := move.2 y hy
  have hone := one _ hx' _ hy' same
  exact hone

end Execution

section Quoted

variable {q : Quote R} {tick : R} {v : V}

/-- At a quote no side has two orders. -/
theorem AtQuote.oneASide (quoted : AtQuote q tick v) : OneASide v := by
  intro x hx y hy same
  have hlevel : some x.1 = some y.1 := by
    rw [← quoted x hx, ← quoted y hy, same]
  exact Option.some.inj hlevel

/-- At a quote a side that is not quoted has no active order. -/
theorem AtQuote.filter_eq_nil (quoted : AtQuote q tick v) {side : Side} (none : q.on side = none) :
    (active v).filter (·.2.side = side) = [] := by
  rw [List.filter_eq_nil_iff]
  intro entry mem same
  have hlevel := quoted entry mem
  rw [of_decide_eq_true same, Quote.level?, none] at hlevel
  cases hlevel

end Quoted

omit [Scalar R] in
/-- When identifiers are distinct, and no two active orders of a side are kept under different ones,
a side has at most one active order. -/
theorem OneASide.length_filter_le_one {v : V} (one : OneASide v)
    (distinct : ((Venue.orders v).map Prod.fst).Nodup) (side : Side) :
    ((active v).filter (·.2.side = side)).length ≤ 1 := by
  have hnodup : (((active v).filter (·.2.side = side)).map Prod.fst).Nodup :=
    ((List.filter_sublist.trans List.filter_sublist).map Prod.fst).nodup distinct
  cases hside : (active v).filter (·.2.side = side) with
  | nil => exact Nat.zero_le 1
  | cons x rest =>
    have hx : x ∈ (active v).filter (·.2.side = side) := by
      rw [hside]
      exact List.mem_cons_self
    cases rest with
    | nil => exact Nat.le_refl 1
    | cons y rest =>
      have hy : y ∈ (active v).filter (·.2.side = side) := by
        rw [hside]
        exact List.mem_cons_of_mem _ List.mem_cons_self
      obtain ⟨hxmem, hxside⟩ := List.mem_filter.mp hx
      obtain ⟨hymem, hyside⟩ := List.mem_filter.mp hy
      have hsame : x.1 = y.1 :=
        one x hxmem y hymem ((of_decide_eq_true hxside).trans (of_decide_eq_true hyside).symm)
      rw [hside, List.map_cons, List.map_cons, List.nodup_cons] at hnodup
      exact absurd (hsame ▸ List.mem_cons_self) hnodup.1

namespace Orderly

variable {Good : V → Prop} {tick : R}

/-- Once the stale orders are cancelled, what is active rests at the quote. -/
theorem atQuote_cancels (orderly : Orderly Good tick) (q : Quote R) {v : V} (good : Good v)
    (keyed : Keyed tick v) : AtQuote q tick (OrderLimits.cancels q v).venue := by
  obtain ⟨-, hsub, hfresh⟩ := orderly.active_cancels q good
  intro entry mem
  obtain ⟨hcancellable, hid, hlevel⟩ := keyed entry (hsub mem)
  have hquoted := hfresh entry mem hcancellable hid
  rw [Quote.isStale, hcancellable, Bool.true_and, bne_eq_false_iff_eq, hlevel] at hquoted
  exact hquoted

/-- A pass, completed or not, keeps the orders under their own levels and leaves all active ones at
the quote. -/
theorem atQuote_reconcile (orderly : Orderly Good tick) (limits : OrderLimits R) (q : Quote R)
    {v : V} (good : Good v) (keyed : Keyed tick v) :
    Keyed tick (limits.reconcile q v).venue ∧ AtQuote q tick (limits.reconcile q v).venue := by
  obtain ⟨-, hsub, -⟩ := orderly.active_cancels q good
  obtain ⟨-, hcases⟩ := orderly.active_reconcile limits q good
  constructor
  · intro entry mem
    rcases hcases entry mem with hold | ⟨side, price, -, -, rfl⟩
    · exact keyed entry (hsub hold)
    · exact ⟨rfl, rfl, rfl⟩
  · intro entry mem
    rcases hcases entry mem with hold | ⟨side, price, hprice, -, rfl⟩
    · exact orderly.atQuote_cancels q good keyed entry hold
    · show (q.on side).map (OrderId.ofPrice · tick) = _
      rw [hprice]
      rfl

/-- A pass of a step, completed or not, leaves a state of the venue, with the orders under their own
levels and all active ones at the quote of the step. -/
theorem atQuote_pass (orderly : Orderly Good tick) (s : Strategy R) {v : V} (good : Good v)
    (keyed : Keyed tick v) :
    Good (s.pass v).venue ∧ Keyed tick (s.pass v).venue ∧
      AtQuote (s.quoted v).1 tick (s.pass v).venue := by
  have hgood := orderly.good_clearTrades good
  have hkeyed : Keyed tick (Venue.clearTrades v) :=
    fun entry mem ↦ keyed entry (orderly.clearTrades good mem)
  exact ⟨(orderly.active_reconcile _ _ hgood).1, orderly.atQuote_reconcile _ _ hgood hkeyed⟩

end Orderly

end Venue

/-! ### Sessions -/

namespace Session

variable {Good : V → Prop} {tick : R} {c : Config R} {v₀ v : V} {s : Strategy R}

/-- In a session the orders of the strategy are kept under their own levels, and no side has two. -/
theorem keyed (session : Session (Venue.Executes Good) c v₀ s v)
    (orderly : Venue.Orderly Good tick) (good : Good v₀) (empty : Venue.orders v₀ = []) :
    Good v ∧ Venue.Keyed tick v ∧ Venue.OneASide v := by
  apply session.venue_invariant (P := fun v ↦ Good v ∧ Venue.Keyed tick v ∧ Venue.OneASide v)
  · exact ⟨good, Venue.keyed_of_orders_eq_nil empty, Venue.oneASide_of_orders_eq_nil empty⟩
  · rintro v w ⟨-, hkeyed, hone⟩ move
    exact ⟨move.1, hkeyed.executes move, hone.executes move⟩
  · rintro s v - ⟨hgood, hkeyed, hone⟩
    rcases s.venue_step v with hsame | hpass
    · rw [hsame]
      exact ⟨hgood, hkeyed, hone⟩
    · obtain ⟨hgood', hkeyed', hquoted⟩ := orderly.atQuote_pass s hgood hkeyed
      rw [hpass]
      exact ⟨hgood', hkeyed', hquoted.oneASide⟩

/-- After a completed step every active order is kept under its identifier, the level of its price,
and this is the level that the step quoted on the side of the order. A side has at most one active
order, and none when the step has no price for it. -/
theorem active_at_quote (session : Session (Venue.Executes Good) c v₀ s v)
    (orderly : Venue.Orderly Good tick) (good : Good v₀) (empty : Venue.orders v₀ = [])
    {row : StepRecord R} (completed : (s.step v).result = .ok row) :
    (∀ entry ∈ Venue.active (s.step v).venue,
      entry.2.id = entry.1 ∧ entry.2.id = OrderId.ofPrice entry.2.price tick ∧
        row.quote.level? tick entry.2.side = some entry.2.id) ∧
    ∀ side, ((Venue.active (s.step v).venue).filter (·.2.side = side)).length ≤ 1 ∧
      (row.quote.on side = none →
        (Venue.active (s.step v).venue).filter (·.2.side = side) = []) := by
  obtain ⟨hgood, hkeyed, -⟩ := session.keyed orderly good empty
  obtain ⟨hgood', hkeyed', hquoted⟩ := orderly.atQuote_pass s hgood hkeyed
  obtain ⟨hvenue, rfl⟩ := Strategy.step_of_ok completed
  rw [hvenue]
  constructor
  · intro entry mem
    obtain ⟨-, hid, hlevel⟩ := hkeyed' entry mem
    refine ⟨hid, hid.trans hlevel.symm, ?_⟩
    rw [hid]
    exact hquoted entry mem
  · intro side
    exact ⟨hquoted.oneASide.length_filter_le_one (orderly.distinct hgood') side,
      hquoted.filter_eq_nil⟩

end Session

/-! ### The replaying venue -/

namespace ReplayVenue

/-- The states of a replaying venue that keeps no two orders under one identifier. -/
def Sound (tick : R) (v : ReplayVenue R) : Prop :=
  (v.orders.map Prod.fst).Nodup ∧ v.tickSize = tick

variable {tick : R} {v : ReplayVenue R}

omit [Scalar R] in
/-- Taking the next tick executes nothing. -/
theorem executes_elapse (sound : Sound tick v) (duration : Int) :
    Venue.Executes (Sound tick) v (v.elapse duration).2 := by
  unfold elapse
  split
  · exact ⟨sound, fun entry mem ↦ ⟨entry.2.qty, mem⟩⟩
  · exact ⟨sound, fun entry mem ↦ ⟨entry.2.qty, mem⟩⟩

/-- The execution of what is active under an identifier, if anything. -/
theorem executes_fill (sound : Sound tick v) (id : OrderId) :
    Venue.Executes (Sound tick) v (v.fill id) := by
  unfold fill
  split
  · split
    · refine ⟨⟨?_, sound.2⟩, fun entry mem ↦ ⟨entry.2.qty, ?_⟩⟩
      · rw [OrderTable.keys_adjust]
        exact sound.1
      · exact ((OrderTable.mem_activeOnly_adjust fun _ ↦ rfl).mp mem).1
    · exact ⟨sound, fun entry mem ↦ ⟨entry.2.qty, mem⟩⟩
  · exact ⟨sound, fun entry mem ↦ ⟨entry.2.qty, mem⟩⟩

end ReplayVenue

/-- In a session a replaying venue can take the next tick. -/
theorem Session.elapse {tick : R} {c : Config R} {s : Strategy R} {venue v : ReplayVenue R}
    (session : Session (Venue.Executes (ReplayVenue.Sound tick)) c venue s v)
    (sound : ReplayVenue.Sound tick venue) (empty : venue.orders = []) (duration : Int) :
    Session (Venue.Executes (ReplayVenue.Sound tick)) c venue s (v.elapse duration).2 :=
  have hsound := (session.keyed (ReplayVenue.orderly tick) sound empty).1
  session.market (ReplayVenue.executes_elapse hsound duration)

open Exact (number)

/-- Four steps over exact numbers. The third bids at the level 96 and offers at 106. The bid is
executed, which takes the inventory to its limit, and the market moves up: the fourth step cancels
the offer, makes one at 103 and does not bid. -/
theorem Session.active_at_quote_executed :
    letI := Elementary.coarse
    let c : Config (Exact ℚ) :=
      { Config.brisk with calibrationWindow := 2, historyCapacity := 10 }
    let venue := (((ReplayVenue.idle 100 101 (number (1 : ℚ))).push
      ⟨100, 101, [⟨.buy, number 103, number 1⟩]⟩).push
      ⟨100, 101, [⟨.buy, number 102, number 1⟩]⟩).push
      ⟨102, 103, [⟨.buy, number 103, number 1⟩]⟩
    let levels (v : ReplayVenue (Exact ℚ)) := (Venue.active v).map fun entry ↦
      (entry.1.tick, entry.2.side)
    let first := (Strategy.fresh c).step venue
    let second := first.strategy.step (first.venue.elapse 1000000000).2
    let third := second.strategy.step (second.venue.elapse 1000000000).2
    let fourth := third.strategy.step ((third.venue.fill ⟨96⟩).elapse 1000000000).2
    levels third.venue = [(96, .buy), (106, .sell)] ∧ levels fourth.venue = [(103, .sell)] ∧
      ∃ row, fourth.result = .ok row ∧
        (∀ entry ∈ Venue.active fourth.venue,
          entry.2.id = entry.1 ∧ entry.2.id = OrderId.ofPrice entry.2.price (number 1) ∧
            row.quote.level? (number 1) entry.2.side = some entry.2.id) ∧
        ∀ side, ((Venue.active fourth.venue).filter (·.2.side = side)).length ≤ 1 ∧
          (row.quote.on side = none →
            (Venue.active fourth.venue).filter (·.2.side = side) = []) := by
  let _ := Elementary.coarse
  intro c venue levels first second third fourth
  let market := Venue.Executes (ReplayVenue.Sound (number (1 : ℚ)))
  have horderly := ReplayVenue.orderly (number (1 : ℚ))
  have hsound : ReplayVenue.Sound (number (1 : ℚ)) venue := ⟨List.nodup_nil, rfl⟩
  have hstart : Strategy.start c = .ok (Strategy.fresh c) :=
    Strategy.start_eq_fresh (by decide +kernel)
  have hfirst : Session market c venue first.strategy first.venue := .step (.start hstart)
  have hsecond : Session market c venue second.strategy second.venue :=
    .step (hfirst.elapse hsound rfl _)
  have hthird : Session market c venue third.strategy third.venue :=
    .step (hsecond.elapse hsound rfl _)
  have hfilled : Session market c venue third.strategy (third.venue.fill ⟨96⟩) :=
    hthird.market (ReplayVenue.executes_fill (hthird.keyed horderly hsound rfl).1 _)
  have hrests : levels third.venue = [(96, .buy), (106, .sell)] := by decide +kernel
  have hrequoted : levels fourth.venue = [(103, .sell)] := by decide +kernel
  have hdone : fourth.result.isOk = true := by decide +kernel
  cases hresult : fourth.result with
  | error e =>
    rw [hresult] at hdone
    cases hdone
  | ok row =>
    exact ⟨hrests, hrequoted, row, rfl,
      active_at_quote (hfilled.elapse hsound rfl _) horderly hsound rfl hresult⟩

end MarketMaking
