import MarketMaking.Proofs.Pass
import MarketMaking.Proofs.Step

/-!
# What a step requests

Of all that happens in a step only placing a side requests an order, and it requests at most the
order of the quote on that side. So a step requests at most two orders, and the bid comes first.
-/

namespace MarketMaking

variable {R V : Type} [Scalar R] [Venue V R]

/-- The orders requested among some events, in their order. -/
def Event.requests (events : List (Event R)) : List (OrderRequest R) :=
  events.filterMap Event.request?

namespace Event

omit [Scalar R] in
@[simp] theorem requests_append (xs ys : List (Event R)) :
    requests (xs ++ ys) = requests xs ++ requests ys := List.filterMap_append

omit [Scalar R] in
/-- Cancelling requests no order. -/
@[simp] theorem requests_cancelAll (ids : List OrderId) (v : V) :
    requests (cancelAll ids v).events = [] :=
  filterMap_cancelAll (fun _ _ ↦ rfl) ids v

end Event

open Event (requests)

/-! ### Passes -/

namespace OrderLimits

private theorem requests_placeSide (limits : OrderLimits R) (q : Quote R) (tick position : R)
    (side : Side) (v : V) :
    (requests (limits.placeSide q tick position side v).events).Sublist
      (limits.wanted? q tick position side).toList := by
  cases hmissing : limits.missing? q tick position side v with
  | none =>
    rw [placeSide_of_missing?_eq_none hmissing]
    exact List.nil_sublist _
  | some request =>
    rw [placeSide_of_missing?_eq_some hmissing, (missing?_eq_some_iff.mp hmissing).1]
    exact List.Sublist.refl _

/-- A pass requests, in this order, the order of the bid and that of the ask, or fewer. -/
theorem requests_reconcile (limits : OrderLimits R) (q : Quote R) (v : V) :
    (requests (limits.reconcile q v).events).Sublist
      ([Side.buy, Side.sell].filterMap
        (limits.wanted? q (Venue.tickSize (Venue.clearInactive v))
          (Venue.position (cancels q v).venue))) := by
  have hsplit : [Side.buy, Side.sell].filterMap
        (limits.wanted? q (Venue.tickSize (Venue.clearInactive v))
          (Venue.position (cancels q v).venue)) =
      (limits.wanted? q (Venue.tickSize (Venue.clearInactive v))
          (Venue.position (cancels q v).venue) .buy).toList ++
        (limits.wanted? q (Venue.tickSize (Venue.clearInactive v))
          (Venue.position (cancels q v).venue) .sell).toList := by
    rw [List.filterMap_cons, List.filterMap_cons, List.filterMap_nil]
    split <;> split <;> simp_all
  have hcancels : requests (cancels q v).events = [] := Event.requests_cancelAll _ _
  have hbid := limits.requests_placeSide q (Venue.tickSize (Venue.clearInactive v))
    (Venue.position (cancels q v).venue) .buy (cancels q v).venue
  have hask := limits.requests_placeSide q (Venue.tickSize (Venue.clearInactive v))
    (Venue.position (cancels q v).venue) .sell (limits.bidPass q v).venue
  rw [hsplit]
  cases hresult : (limits.bidPass q v).result with
  | error e =>
    rw [reconcile_of_bid_error hresult, Event.requests_append, hcancels, List.nil_append]
    exact hbid.trans (List.sublist_append_left _ _)
  | ok placed =>
    rw [reconcile_of_bid_ok hresult, Event.requests_append, Event.requests_append, hcancels,
      List.nil_append]
    exact hbid.append hask

/-- A pass requests at most one order a side, and the bid comes first. -/
theorem requests_reconcile_sides (limits : OrderLimits R) (q : Quote R) (v : V) :
    ((requests (limits.reconcile q v).events).map OrderRequest.side).Sublist [.buy, .sell] := by
  have hmap (tick position : R) (sides : List Side) :
      ((sides.filterMap (limits.wanted? q tick position)).map OrderRequest.side).Sublist sides := by
    induction sides with
    | nil => exact List.Sublist.refl _
    | cons side sides ih =>
      cases hw : limits.wanted? q tick position side with
      | none =>
        rw [List.filterMap_cons_none hw]
        exact ih.cons side
      | some request =>
        obtain ⟨price, -, -, rfl⟩ := wanted?_eq_some_iff.mp hw
        rw [List.filterMap_cons_some hw, List.map_cons]
        exact ih.cons_cons side
  exact ((limits.requests_reconcile q v).map OrderRequest.side).trans (hmap _ _ _)

end OrderLimits

/-! ### Steps -/

namespace Strategy

omit [Venue V R] in
private theorem requests_calibrate (s : Strategy R) (step : Nat) : requests (s.calibrate step).2 =
    [] := by
  have hannounce (t : Strategy R) : requests (t.announce step).2 = [] := by
    unfold announce
    split <;> rfl
  have hfit : (s.fitWindow step).2.request? = none := by
    unfold fitWindow
    split
    · simp only [calibrationEvent]
      split <;> rfl
    · rfl
  rw [calibrate_eq]
  change ((s.fitWindow step).2 :: ((s.fitWindow step).1.announce step).2).filterMap _ = []
  rw [List.filterMap_cons_none hfit]
  exact hannounce _

/-- Before it comes to its orders a step requests none. -/
theorem requests_preparation (s : Strategy R) (v : V) : requests (s.preparation v) = [] := by
  have hobserved : requests (s.observed v).2 = [] := by
    unfold observed observe
    simp only
    split <;> rfl
  have hrecalibrated (t : Strategy R) : requests t.recalibrated.2 = [] := by
    unfold recalibrated
    split
    · exact t.requests_calibrate t.steps
    · rfl
  have hquoted : requests (s.quoted v).2 = [] := by
    unfold quoted quotation
    split
    · split <;> rfl
    · rfl
  unfold preparation
  rw [Event.requests_append, Event.requests_append, hobserved, hrecalibrated, hquoted]
  rfl

private theorem requests_step_of_room {s : Strategy R} (room : s.history.refusal? = none) (v : V) :
    requests (s.step v).events = requests (s.pass v).events := by
  rw [step_of_room room]
  cases (s.pass v).result with
  | error e => rw [Event.requests_append, requests_preparation, List.nil_append]
  | ok r => rw [Event.requests_append, requests_preparation, List.nil_append]

/-- A step requests what its pass over the orders does, and nothing when the history refuses it. -/
theorem requests_step (s : Strategy R) (v : V) :
    (requests (s.step v).events).Sublist (requests (s.pass v).events) := by
  cases hr : s.history.refusal? with
  | some e =>
    rw [step_of_refusal hr]
    exact List.nil_sublist _
  | none => exact requests_step_of_room hr v ▸ List.Sublist.refl _

/-- A step requests at most one order a side, and the bid comes first. -/
theorem requests_sides (s : Strategy R) (v : V) :
    ((requests (s.step v).events).map OrderRequest.side).Sublist [.buy, .sell] :=
  ((s.requests_step v).map OrderRequest.side).trans (OrderLimits.requests_reconcile_sides _ _ _)

end Strategy

end MarketMaking
