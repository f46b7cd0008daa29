import MarketMaking.Proofs.Chronicle
import MarketMaking.Proofs.Stages
import MarketMaking.Venue.Replay

/-!
# Totals of requests

A pass over the orders that comes to its end reports exactly how many of its requests the venue
accepted, and a completed step adds the report to the totals. A pass that fails makes no report:
what the venue accepted before the failure is in no total.
-/

namespace MarketMaking

variable {R V : Type}

/-- What a pass requests of the venue. -/
inductive RequestKind where
  | cancellation
  | order

/-- The number of accepted requests of this kind in the report of a pass. -/
def RequestKind.reported : RequestKind → Reconciliation → Nat
  | cancellation, r => r.cancelled
  | order, r => r.submitted

/-- The total of accepted requests of this kind. -/
def RequestKind.total : RequestKind → Summary R → Nat
  | cancellation, totals => totals.ordersCancelled
  | order, totals => totals.ordersSubmitted

namespace Event

/-- Is this a request of the given kind that the venue accepted? -/
def isAccepted : RequestKind → Event R → Bool
  | .cancellation, cancelRequested _ accepted => accepted
  | .order, orderRequested _ failure => failure.isNone
  | _, _ => false

/-- How many requests of the given kind the venue accepted among some events. -/
def countAccepted (kind : RequestKind) (events : List (Event R)) : Nat :=
  events.countP (isAccepted kind)

variable {kind : RequestKind}

@[simp] theorem countAccepted_nil : countAccepted kind ([] : List (Event R)) = 0 := rfl

@[simp] theorem countAccepted_append (xs ys : List (Event R)) :
    countAccepted kind (xs ++ ys) = countAccepted kind xs + countAccepted kind ys :=
  List.countP_append

private theorem stage_of_isAccepted (event : Event R) (accepted : event.isAccepted kind = true) :
    event.stage = .trading := by
  cases kind <;> cases event <;> first | rfl | cases accepted

end Event

open Event (countAccepted)

variable {kind : RequestKind} [Scalar R] [Venue V R]

/-! ### Passes -/

namespace OrderLimits

omit [Scalar R] in
private theorem countAccepted_cancelAll (ids : List OrderId) (v : V) :
    countAccepted kind (cancelAll ids v).events = kind.reported ⟨(cancelAll ids v).result, 0⟩ := by
  cases kind with
  | cancellation =>
    rw [RequestKind.reported, result_cancelAll, countAccepted]
    congr 1
    funext event
    cases event <;> rfl
  | order =>
    rw [RequestKind.reported, countAccepted, List.countP_eq_zero]
    intro event mem
    obtain ⟨id, -, accepted, rfl⟩ := exists_of_mem_cancelAll mem
    exact Bool.false_ne_true

private theorem countAccepted_placeSide (limits : OrderLimits R) (q : Quote R) (tick position : R)
    (side : Side) (v : V) :
    countAccepted kind (limits.placeSide q tick position side v).events =
      kind.reported
        ⟨0, ((limits.placeSide q tick position side v).result.toOption.getD false).toNat⟩ := by
  cases hmissing : limits.missing? q tick position side v with
  | none =>
    rw [placeSide_of_missing?_eq_none hmissing]
    cases kind <;> rfl
  | some request =>
    rw [placeSide_of_missing?_eq_some hmissing]
    cases (Venue.submit v request).1 with
    | ok => cases kind <;> rfl
    | error e => cases kind <;> cases e <;> rfl

/-- A pass that comes to its end reports exactly what the venue accepted. -/
theorem countAccepted_reconcile {limits : OrderLimits R} {q : Quote R} {v : V}
    {report : Reconciliation} (done : (limits.reconcile q v).result = .ok report) :
    countAccepted kind (limits.reconcile q v).events = kind.reported report := by
  cases hbid : (limits.bidPass q v).result with
  | error e =>
    rw [reconcile_of_bid_error hbid] at done
    cases done
  | ok bidPlaced =>
    rw [reconcile_of_bid_ok hbid] at done ⊢
    cases hask : (limits.askPass q v).result with
    | error e =>
      rw [hask] at done
      cases done
    | ok askPlaced =>
      rw [hask] at done
      obtain rfl := Except.ok.inj done
      have hcancels : countAccepted kind (cancels q v).events =
          kind.reported ⟨(cancels q v).result, 0⟩ := countAccepted_cancelAll _ _
      have hbids : countAccepted kind (limits.bidPass q v).events =
          kind.reported ⟨0, ((limits.bidPass q v).result.toOption.getD false).toNat⟩ :=
        limits.countAccepted_placeSide q _ _ _ _
      have hasks : countAccepted kind (limits.askPass q v).events =
          kind.reported ⟨0, ((limits.askPass q v).result.toOption.getD false).toNat⟩ :=
        limits.countAccepted_placeSide q _ _ _ _
      rw [Event.countAccepted_append, Event.countAccepted_append, hcancels, hbids, hasks, hbid,
        hask]
      cases kind <;> simp [RequestKind.reported, Except.toOption]

end OrderLimits

/-! ### Steps -/

namespace Strategy

variable {s : Strategy R} {v : V}

/-- What the venue accepted in a recorded step is what it accepted in its pass. -/
theorem countAccepted_step (room : s.history.refusal? = none) :
    countAccepted kind (s.step v).events = countAccepted kind (s.pass v).events := by
  rw [countAccepted, ← Event.countP_filter_stage Event.stage_of_isAccepted, filter_trading room,
    countAccepted]

/-- A completed step adds to the totals what the venue accepted. -/
theorem total_of_completed (completed : (s.step v).result.isOk = true) :
    kind.total (s.step v).strategy.summary =
      kind.total s.summary + countAccepted kind (s.step v).events := by
  cases hr : s.history.refusal? with
  | some e =>
    rw [step_of_refusal hr] at completed
    cases completed
  | none =>
    rw [countAccepted_step hr]
    rw [step_of_room hr] at completed ⊢
    cases hp : (s.pass v).result with
    | error e =>
      rw [hp] at completed
      cases completed
    | ok report =>
      have hreport : countAccepted kind (s.pass v).events = kind.reported report :=
        OrderLimits.countAccepted_reconcile hp
      have hprepared : kind.total (s.prepared v).summary = kind.total s.summary := by
        rw [prepared, recalibrated_frame]
        cases kind <;> rfl
      rw [hreport, ← hprepared]
      cases kind <;> rfl

/-- A step that fails adds nothing to the totals. -/
theorem total_of_failed (failed : (s.step v).result.isOk = false) :
    kind.total (s.step v).strategy.summary = kind.total s.summary := by
  cases hr : s.history.refusal? with
  | some e => rw [step_of_refusal hr]
  | none =>
    rw [step_of_room hr] at failed ⊢
    cases hp : (s.pass v).result with
    | error e =>
      show kind.total (s.prepared v).summary = kind.total s.summary
      rw [prepared, recalibrated_frame]
      cases kind <;> rfl
    | ok report =>
      rw [hp] at failed
      cases failed

private theorem total_finish (s : Strategy R) (kind : RequestKind) :
    kind.total s.finish.1.summary = kind.total s.summary ∧ countAccepted kind s.finish.2 = 0 := by
  have hevents : Event.AllFrom .calibrating s.finish.2 := by
    unfold finish
    split
    · exact s.allFrom_calibrate _
    · rintro event (_ | _)
  refine ⟨?_, hevents.countP_eq_zero Event.stage_of_isAccepted (by decide)⟩
  rw [finish_frame]
  cases kind <;> rfl

end Strategy

/-! ### Chronicles -/

namespace Chronicle

variable {c : Config R} {past : List (Deed R V)} {s : Strategy R}

/-- What the venue accepted is in the totals, but for what it accepted in steps that failed. -/
theorem countAccepted_told {v : V} (chronicle : Chronicle c past s v) (kind : RequestKind) :
    countAccepted kind (told past) =
      kind.total s.summary + countAccepted kind (told (past.filter Deed.isFailed)) := by
  induction chronicle with
  | start v started =>
    obtain ⟨-, rfl⟩ := Strategy.start_eq_ok_iff.mp started
    cases kind <;> rfl
  | market _ w ih => exact ih
  | @step past s v _ ih =>
    rw [told_append, told_singleton, List.filter_append, told_append, Event.countAccepted_append,
      Event.countAccepted_append, ih]
    -- the step either adds to the totals or to what is left over
    cases hresult : (s.step v).result.isOk with
    | true =>
      have hkept : [Deed.step s v].filter Deed.isFailed = [] :=
        List.filter_cons_of_neg (by rw [Deed.isFailed, hresult]; decide)
      rw [hkept, Strategy.total_of_completed hresult, told_nil, Event.countAccepted_nil]
      show _ + countAccepted kind (s.step v).events = _
      omega
    | false =>
      have hkept : [Deed.step s v].filter Deed.isFailed = [Deed.step s v] :=
        List.filter_cons_of_pos (by rw [Deed.isFailed, hresult]; rfl)
      rw [hkept, Strategy.total_of_failed hresult, told_singleton, Nat.add_assoc]
  | @finish past s v _ ih =>
    obtain ⟨htotal, hnothing⟩ := s.total_finish kind
    have hkept : [Deed.finish s].filter (Deed.isFailed (V := V)) = [] := rfl
    rw [told_append, told_singleton, List.filter_append, hkept, List.append_nil,
      Event.countAccepted_append, ih, htotal]
    show _ + countAccepted kind s.finish.2 = _
    rw [hnothing, Nat.add_zero]

/-- Through any steps, completed or failed, the totals of a strategy are what the venue accepted of
its requests less what it accepted in the steps that failed. As long as no step has failed, they are
all that the venue accepted. -/
theorem summary_accepted {v : V} (chronicle : Chronicle c past s v) :
    countAccepted .cancellation (told past) = s.summary.ordersCancelled +
        countAccepted .cancellation (told (past.filter Deed.isFailed)) ∧
      countAccepted .order (told past) = s.summary.ordersSubmitted +
        countAccepted .order (told (past.filter Deed.isFailed)) ∧
      ((∀ deed ∈ past, deed.isFailed = false) →
        s.summary.ordersCancelled = countAccepted .cancellation (told past) ∧
          s.summary.ordersSubmitted = countAccepted .order (told past)) := by
  have hcancels := chronicle.countAccepted_told .cancellation
  have horders := chronicle.countAccepted_told .order
  refine ⟨hcancels, horders, fun unfailed ↦ ?_⟩
  have hnone : past.filter Deed.isFailed = [] :=
    List.filter_eq_nil_iff.mpr fun deed mem ↦ Bool.eq_false_iff.mp (unfailed deed mem)
  rw [hnone] at hcancels horders
  exact ⟨hcancels.symm, horders.symm⟩

/-- Two steps, of which the first cancels an order, and a third one that a full history refuses. -/
theorem summary_accepted_refused :
    let c := { Config.brief with historyCapacity := 2, historyOverflow := .fail }
    let quiet : ReplayVenue Float := ReplayVenue.idle 100 101 0.5
    let venues := [quiet.insert ⟨7⟩ .buy 3.5 true, quiet]
    let past := (Strategy.fresh c).stepsAt venues
    let later := (Strategy.fresh c).stepsAt (venues ++ [quiet])
    let s := (Strategy.fresh c).after venues
    let t := (Strategy.fresh c).after (venues ++ [quiet])
    (∀ deed ∈ past, deed.isFailed = false) ∧ later.any Deed.isFailed = true ∧
      s.summary.ordersCancelled = 1 ∧
      s.summary.ordersCancelled = countAccepted .cancellation (told past) ∧
      s.summary.ordersSubmitted = countAccepted .order (told past) ∧
      countAccepted .cancellation (told later) =
        t.summary.ordersCancelled +
          countAccepted .cancellation (told (later.filter Deed.isFailed)) ∧
      countAccepted .order (told later) =
        t.summary.ordersSubmitted + countAccepted .order (told (later.filter Deed.isFailed)) := by
  intro c quiet venues past later s t
  have hsound : c.defect? = none := by decide +kernel
  obtain ⟨v, hpast⟩ : ∃ v, Chronicle c past s v := Chronicle.of_stepsAt hsound quiet venues
  obtain ⟨w, hlater⟩ : ∃ w, Chronicle c later t w :=
    Chronicle.of_stepsAt hsound quiet (venues ++ [quiet])
  have hunfailed : ∀ deed ∈ past, deed.isFailed = false := by decide +kernel
  obtain ⟨hcancelled, hsubmitted⟩ := hpast.summary_accepted.2.2 hunfailed
  obtain ⟨hcancels, horders, -⟩ := hlater.summary_accepted
  exact ⟨hunfailed, by decide +kernel, by decide +kernel, hcancelled, hsubmitted, hcancels, horders⟩

end Chronicle

end MarketMaking
