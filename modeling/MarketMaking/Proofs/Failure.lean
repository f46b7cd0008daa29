import MarketMaking.Proofs.Capacity
import MarketMaking.Proofs.Exact
import MarketMaking.Proofs.Requests
import MarketMaking.Venue.Scripted

/-!
# What fails a step

A step fails for one of two reasons. Its history is full and may not drop samples: then nothing was
done, and every later step fails in the same way. Or the venue failed an order for another reason
than a rejection: then that was the last thing that happened. A fit that fails, a decay without a
quote, a cancellation that is refused and an order that is rejected fail no step.
-/

namespace MarketMaking

variable {R V : Type}

/-- Is this the refusal of an order that leaves the others to be placed? -/
def Error.isRejection : Error R → Bool
  | orderRejected .. => true
  | _ => false

namespace Event

/-- The failure of an order that this event tells of, unless it is a rejection. -/
def failure? : Event R → Option (Error R)
  | orderRequested _ (some e) => if e.isRejection then none else some e
  | _ => none

/-- The failures of orders among some events, in their order, without the rejections. -/
def failures (events : List (Event R)) : List (Error R) := events.filterMap failure?

@[simp] theorem failures_append (xs ys : List (Event R)) :
    failures (xs ++ ys) = failures xs ++ failures ys := List.filterMap_append

private theorem failure?_eq_some_iff {event : Event R} {e : Error R} :
    event.failure? = some e ↔
      e.isRejection = false ∧ ∃ request, event = .orderRequested request (some e) := by
  constructor
  · intro failed
    unfold failure? at failed
    split at failed
    · next request cause =>
      split at failed
      · cases failed
      · next other =>
        obtain rfl := Option.some.inj failed
        exact ⟨Bool.eq_false_iff.mpr other, request, rfl⟩
    · cases failed
  · rintro ⟨other, request, rfl⟩
    simp [failure?, other]

/-- What failed among some events is what an order failed with, rejections aside. -/
theorem mem_failures {events : List (Event R)} {e : Error R} :
    e ∈ failures events ↔
      e.isRejection = false ∧ ∃ request, .orderRequested request (some e) ∈ events := by
  simp only [failures, List.mem_filterMap, failure?_eq_some_iff]
  constructor
  · rintro ⟨event, mem, other, request, rfl⟩
    exact ⟨other, request, mem⟩
  · rintro ⟨other, request, mem⟩
    exact ⟨_, mem, other, request, rfl⟩

end Event

open Event (failures requests)
open Exact (number)

/-- The failure of a result, if it is one. -/
def failureOf {α : Type} : Except (Error R) α → List (Error R)
  | .error e => [e]
  | .ok _ => []

private theorem mem_failureOf {α : Type} {result : Except (Error R) α} {e : Error R} :
    e ∈ failureOf result ↔ result = .error e := by
  cases result <;> simp [failureOf, eq_comm]

variable [Scalar R] [Venue V R]

/-! ### Passes -/

namespace OrderLimits

omit [Scalar R] in
private theorem failures_cancelAll (ids : List OrderId) (v : V) :
    failures (cancelAll ids v).events = [] :=
  filterMap_cancelAll (fun _ _ ↦ rfl) ids v

private theorem failures_placeSide (limits : OrderLimits R) (q : Quote R) (tick position : R)
    (side : Side) (v : V) :
    failures (limits.placeSide q tick position side v).events =
      failureOf (limits.placeSide q tick position side v).result := by
  cases hmissing : limits.missing? q tick position side v with
  | none =>
    rw [placeSide_of_missing?_eq_none hmissing]
    rfl
  | some request =>
    rw [placeSide_of_missing?_eq_some hmissing]
    cases (Venue.submit v request).1 with
    | ok => rfl
    | error e => cases e <;> rfl

/-- A pass fails with what an order of it failed with, and with one order at most. -/
theorem failures_reconcile (limits : OrderLimits R) (q : Quote R) (v : V) :
    failures (limits.reconcile q v).events = failureOf (limits.reconcile q v).result := by
  have hcancels : failures (cancels q v).events = [] := failures_cancelAll _ _
  have hbid : failures (limits.bidPass q v).events = failureOf (limits.bidPass q v).result :=
    limits.failures_placeSide q _ _ _ _
  have hask : failures (limits.askPass q v).events = failureOf (limits.askPass q v).result :=
    limits.failures_placeSide q _ _ _ _
  cases hresult : (limits.bidPass q v).result with
  | error e =>
    rw [reconcile_of_bid_error hresult, Event.failures_append, hcancels, hbid, hresult]
    rfl
  | ok placed =>
    rw [reconcile_of_bid_ok hresult, Event.failures_append, Event.failures_append, hcancels, hbid,
      hresult, hask]
    cases (limits.askPass q v).result <;> rfl

/-- When a side fails, its order was all that happened. -/
theorem events_placeSide_of_error {limits : OrderLimits R} {q : Quote R} {tick position : R}
    {side : Side} {v : V} {e : Error R}
    (failed : (limits.placeSide q tick position side v).result = .error e) :
    ∃ request, request.side = side ∧
      (limits.placeSide q tick position side v).events = [.orderRequested request (some e)] := by
  cases hmissing : limits.missing? q tick position side v with
  | none =>
    rw [placeSide_of_missing?_eq_none hmissing] at failed
    cases failed
  | some request =>
    obtain ⟨price, -, -, rfl⟩ := wanted?_eq_some_iff.mp (missing?_eq_some_iff.mp hmissing).1
    rw [placeSide_of_missing?_eq_some hmissing] at failed ⊢
    refine ⟨limits.request side price tick, rfl, ?_⟩
    rw [eq_error_of_verdict_eq_error failed]
    rfl

/-- When a pass fails, an order is the last thing that happened. When it was the bid, no ask was
requested. -/
theorem events_reconcile_of_error {limits : OrderLimits R} {q : Quote R} {v : V} {e : Error R}
    (failed : (limits.reconcile q v).result = .error e) :
    ∃ before request, (limits.reconcile q v).events =
        before ++ [.orderRequested request (some e)] ∧
      (request.side = .buy → requests before = []) := by
  have hcancels : requests (cancels q v).events = [] := Event.requests_cancelAll _ _
  cases hresult : (limits.bidPass q v).result with
  | error cause =>
    rw [reconcile_of_bid_error hresult] at failed ⊢
    obtain rfl := Except.error.inj failed
    obtain ⟨request, -, hevents⟩ := events_placeSide_of_error hresult
    refine ⟨(cancels q v).events, request, ?_, fun _ ↦ hcancels⟩
    rw [bidPass, hevents]
  | ok placed =>
    rw [reconcile_of_bid_ok hresult] at failed ⊢
    cases hask : (limits.askPass q v).result with
    | ok askPlaced =>
      rw [hask] at failed
      cases failed
    | error cause =>
      rw [hask] at failed
      obtain rfl := Except.error.inj failed
      obtain ⟨request, hside, hevents⟩ := events_placeSide_of_error hask
      refine ⟨(cancels q v).events ++ (limits.bidPass q v).events, request, ?_, fun buy ↦ ?_⟩
      · rw [askPass, hevents]
      · rw [hside] at buy
        cases buy

end OrderLimits

/-! ### Steps -/

namespace Strategy

variable {s : Strategy R} {v : V}

/-- A recorded step fails with what an order of it failed with, and with one order at most. -/
theorem failures_step (room : s.history.refusal? = none) (v : V) :
    failures (s.step v).events = failureOf (s.step v).result := by
  have hpreparation : failures (s.preparation v) = [] := by
    refine List.filterMap_eq_nil_iff.mpr fun event mem ↦ ?_
    cases hfailure : event.failure? with
    | none => rfl
    | some e =>
      -- a failure is that of a request, and there is none yet
      obtain ⟨-, request, rfl⟩ := Event.failure?_eq_some_iff.mp hfailure
      have hrequest : request ∈ requests (s.preparation v) :=
        List.mem_filterMap.mpr ⟨_, mem, rfl⟩
      rw [requests_preparation] at hrequest
      cases hrequest
  have hpass : failures (s.pass v).events = failureOf (s.pass v).result :=
    OrderLimits.failures_reconcile _ _ _
  rw [step_of_room room]
  cases hresult : (s.pass v).result with
  | error e =>
    rw [Event.failures_append, hpreparation, hpass, hresult]
    rfl
  | ok report =>
    rw [Event.failures_append, hpreparation, hpass, hresult]
    rfl

/-- When a recorded step fails, an order is the last thing that happened. When it was the bid, no
order was requested before. -/
theorem events_step_of_error {e : Error R} (room : s.history.refusal? = none)
    (failed : (s.step v).result = .error e) :
    ∃ before request, (s.step v).events = before ++ [.orderRequested request (some e)] ∧
      (request.side = .buy → requests before = []) := by
  rw [step_of_room room] at failed ⊢
  cases hresult : (s.pass v).result with
  | ok report =>
    rw [hresult] at failed
    cases failed
  | error cause =>
    rw [hresult] at failed
    obtain rfl := Except.error.inj failed
    obtain ⟨before, request, hevents, hbuy⟩ := OrderLimits.events_reconcile_of_error hresult
    refine ⟨s.preparation v ++ before, request, ?_, fun buy ↦ ?_⟩
    · show s.preparation v ++ (s.pass v).events = _
      rw [pass, hevents, List.append_assoc]
    · rw [Event.requests_append, requests_preparation, hbuy buy]
      rfl

/-- An order that fails for another reason than a rejection fails its step. It is the last thing
that happened, and the only order requested if it is the bid. -/
theorem of_failed_order {request : OrderRequest R} {e : Error R}
    (mem : .orderRequested request (some e) ∈ (s.step v).events) (other : e.isRejection = false) :
    (s.step v).result = .error e ∧
      (s.step v).events.getLast? = some (.orderRequested request (some e)) ∧
      (request.side = .buy → requests (s.step v).events = [request]) := by
  cases hr : s.history.refusal? with
  | some cause =>
    rw [step_of_refusal hr] at mem
    cases mem
  | none =>
    have hfailures := failures_step hr v
    have hfailed : (s.step v).result = .error e := by
      rw [← mem_failureOf, ← hfailures, Event.mem_failures]
      exact ⟨other, request, mem⟩
    obtain ⟨before, last, hevents, hbuy⟩ := events_step_of_error hr hfailed
    have hbefore : failures before = [] := by
      rw [hfailed, hevents, Event.failures_append] at hfailures
      have hlast : failures [.orderRequested last (some e)] = [e] := by
        simp [failures, Event.failure?, other]
      rw [hlast] at hfailures
      simpa [failureOf] using hfailures
    -- no more than one order fails, so it is the last one
    obtain rfl : request = last := by
      rw [hevents, List.mem_append, List.mem_singleton] at mem
      rcases mem with early | same
      · have hmem : e ∈ failures before := Event.mem_failures.mpr ⟨other, request, early⟩
        rw [hbefore] at hmem
        cases hmem
      · exact (Event.orderRequested.inj same).1
    refine ⟨hfailed, by rw [hevents, List.getLast?_concat], fun buy ↦ ?_⟩
    rw [hevents, Event.requests_append, hbuy buy]
    rfl

/-- A recorded step fails exactly with what an order failed with, rejections aside. -/
theorem result_eq_error_iff (room : s.history.refusal? = none) {e : Error R} :
    (s.step v).result = .error e ↔
      e.isRejection = false ∧ ∃ request, .orderRequested request (some e) ∈ (s.step v).events := by
  rw [← mem_failureOf, ← failures_step room, Event.mem_failures]

variable (V) in
/-- The strategies that steps of any outcome, at any venues, and the end of the data can lead to. -/
inductive Leads (s : Strategy R) : Strategy R → Prop where
  | refl : Leads s s
  | step {t : Strategy R} (v : V) : Leads s t → Leads s (t.step v).strategy
  | finish {t : Strategy R} : Leads s t → Leads s t.finish.1

/-- A full history that may not drop samples stays what it is. -/
theorem Leads.history_eq {t : Strategy R} {e : Error R} (leads : Leads V s t)
    (refused : s.history.refusal? = some e) : t.history = s.history := by
  induction leads with
  | refl => rfl
  | step v _ ih =>
    rw [step_of_refusal (ih.symm ▸ refused)]
    exact ih
  | finish _ ih =>
    rw [finish_frame]
    exact ih

end Strategy

namespace Chronicle

variable {c : Config R} {past : List (Deed R V)} {s : Strategy R} {v : V}

/-- Whatever has been done, a step fails exactly when the history is full and may not drop samples,
or when an order of the step failed and was not rejected. In the first case nothing changes and
nothing is requested, now and in every later step. In the second the order is the last thing that
happened, and no ask was requested if it was the bid. In any other case the step is completed,
whatever became of its fit, its quote, its cancellations and its rejected orders. A history that may
drop samples is never the reason. -/
theorem step_fails_iff (chronicle : Chronicle c past s v) :
    (∀ e, (s.step v).result = .error e ↔
        (c.historyOverflow = .fail ∧ s.history.size = c.historyCapacity ∧
          e = .historyCapacityExceeded c.historyCapacity) ∨
        (e.isRejection = false ∧ ∃ request,
          .orderRequested request (some e) ∈ (s.step v).events)) ∧
      (c.historyOverflow = .fail → s.history.size = c.historyCapacity →
        ∀ t, s.Leads V t → ∀ w : V,
          t.step w = ⟨.error (.historyCapacityExceeded c.historyCapacity), t, w, []⟩) ∧
      (∀ request e, .orderRequested request (some e) ∈ (s.step v).events →
        e.isRejection = false →
          (s.step v).events.getLast? = some (.orderRequested request (some e)) ∧
            (request.side = .buy → requests (s.step v).events = [request])) ∧
      ((∃ row, (s.step v).result = .ok row) ↔
        ¬ (c.historyOverflow = .fail ∧ s.history.size = c.historyCapacity) ∧
          ∀ request e, .orderRequested request (some e) ∈ (s.step v).events →
            e.isRejection = true) ∧
      (c.historyOverflow = .compact → s.history.refusal? = none) := by
  have hrefusal := chronicle.suits.refusal?_eq chronicle.accepted
  by_cases full : c.historyOverflow = .fail ∧ s.history.size = c.historyCapacity
  · -- nothing happens in this step nor in later ones
    rw [if_pos full] at hrefusal
    have hstep (t : Strategy R) (leads : s.Leads V t) (w : V) :
        t.step w = ⟨.error (.historyCapacityExceeded c.historyCapacity), t, w, []⟩ :=
      Strategy.step_of_refusal (leads.history_eq hrefusal ▸ hrefusal) w
    rw [hstep s .refl v]
    refine ⟨fun e ↦ ?_, fun _ _ ↦ hstep, ?_, ?_, ?_⟩
    · constructor
      · intro failed
        exact .inl ⟨full.1, full.2, (Except.error.inj failed).symm⟩
      · rintro (⟨-, -, rfl⟩ | ⟨-, request, _ | _⟩)
        rfl
    · rintro request e (_ | _)
    · simp [full]
    · intro compact
      rw [compact] at full
      cases full.1
  · rw [if_neg full] at hrefusal
    have hiff (e : Error R) := Strategy.result_eq_error_iff (v := v) (e := e) hrefusal
    refine ⟨fun e ↦ ?_, fun policy reached ↦ absurd ⟨policy, reached⟩ full, ?_, ?_,
      fun _ ↦ hrefusal⟩
    · rw [hiff, ← and_assoc, or_iff_right (fun refused ↦ full refused.1)]
    · intro request e mem other
      exact (Strategy.of_failed_order mem other).2
    · cases hresult : (s.step v).result with
      | ok row =>
        refine ⟨fun _ ↦ ⟨full, fun request e mem ↦ ?_⟩, fun _ ↦ ⟨row, rfl⟩⟩
        cases hrejection : e.isRejection with
        | true => rfl
        | false =>
          have hfailed := (hiff e).mpr ⟨hrejection, request, mem⟩
          rw [hresult] at hfailed
          cases hfailed
      | error e =>
        obtain ⟨other, request, mem⟩ := (hiff e).mp hresult
        refine ⟨fun ⟨row, completed⟩ ↦ (by cases completed), fun ⟨_, rejected⟩ ↦ ?_⟩
        rw [rejected request e mem] at other
        cases other

/-- Three steps over exact numbers, at a venue that fails the bid of the third or rejects it. A bid
that fails ends its step, and no ask is requested. One that is rejected is followed by the ask, and
the step is completed. The history is full after the failure, so that all later steps are refused,
also behind the end of the data. -/
theorem step_fails_iff_disconnected :
    letI := Elementary.coarse
    let c : Config (Exact ℚ) := { Config.brisk with calibrationWindow := 2 }
    let market (trades : List (Trade (Exact ℚ))) : ScriptedVenue (Exact ℚ) :=
      { ScriptedVenue.idle (number 1) with bestBid := 100, bestAsk := 101, trades }
    let buy (price : ℚ) : Trade (Exact ℚ) := ⟨.buy, number price, number 1⟩
    let s := (Strategy.fresh c).after [market [], market [buy 103]]
    let failed := s.step { market [buy 102] with failing := [(⟨96⟩, .io "connection lost")] }
    let rejected := s.step { market [buy 102] with rejected := [⟨96⟩] }
    let t := failed.strategy
    failed.result = .error (.io "connection lost") ∧
      (∃ bid, bid.side = .buy ∧ requests failed.events = [bid]) ∧
      (∃ row, rejected.result = .ok row) ∧
      (requests rejected.events).map OrderRequest.side = [.buy, .sell] ∧
      t.step (market []) = ⟨.error (.historyCapacityExceeded 3), t, market [], []⟩ ∧
      t.finish.1.step (market []) =
        ⟨.error (.historyCapacityExceeded 3), t.finish.1, market [], []⟩ := by
  let _ := Elementary.coarse
  intro c market buy s failed rejected t
  have hsound : c.defect? = none := by decide +kernel
  obtain ⟨v, hbefore⟩ : ∃ v, Chronicle c _ s v :=
    Chronicle.of_stepsAt hsound (market []) [market [], market [buy 103]]
  obtain ⟨w, hafter⟩ : ∃ w, Chronicle c _ t w := ⟨_, .step (hbefore.market _)⟩
  have hroom : s.history.size = 2 := by decide +kernel
  have hfull : t.history.size = c.historyCapacity := by decide +kernel
  have hlost : failures failed.events = [.io "connection lost"] := by decide +kernel
  have hbuy : (requests failed.events).map OrderRequest.side = [.buy] := by decide +kernel
  obtain ⟨hother, bid, hmem⟩ := Event.mem_failures.mp (hlost ▸ List.mem_singleton_self _)
  have hrequest : bid ∈ requests failed.events := List.mem_filterMap.mpr ⟨_, hmem, rfl⟩
  have hbid : bid.side = .buy := by
    have hside : bid.side ∈ (requests failed.events).map OrderRequest.side :=
      List.mem_map_of_mem hrequest
    rw [hbuy] at hside
    exact List.mem_singleton.mp hside
  have hnone : failures rejected.events = [] := by decide +kernel
  have hboth : (requests rejected.events).map OrderRequest.side = [.buy, .sell] := by decide +kernel
  obtain ⟨hfails, -, hlast, -, -⟩ := (hbefore.market _).step_fails_iff
  obtain ⟨-, -, -, hcompleted, -⟩ := (hbefore.market _).step_fails_iff
  obtain ⟨-, hlater, -, -, -⟩ := (hafter.market (market [])).step_fails_iff
  refine ⟨(hfails _).mpr (.inr ⟨hother, bid, hmem⟩), ⟨bid, hbid, (hlast bid _ hmem hother).2 hbid⟩,
    hcompleted.mpr ⟨?_, ?_⟩, hboth, hlater rfl hfull t .refl _,
    hlater rfl hfull _ (.finish .refl) _⟩
  · rintro ⟨-, full⟩
    rw [hroom] at full
    cases full
  · intro request e mem
    cases hrejection : e.isRejection with
    | true => rfl
    | false =>
      have hfailure : e ∈ failures rejected.events :=
        Event.mem_failures.mpr ⟨hrejection, request, mem⟩
      rw [hnone] at hfailure
      cases hfailure

end Chronicle

end MarketMaking
