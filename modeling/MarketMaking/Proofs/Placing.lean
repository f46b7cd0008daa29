import MarketMaking.Reconcile

/-!
# Placing the quote of a side

A side lacks an order when it is quoted, the limits admit its quote and no order is kept under the
level of the quote. Then the order is requested, and the answer of the venue is all that decides
what becomes of it. Otherwise nothing happens. Whatever is said of placing rests on these two
equations, which say all that it does.
-/

namespace MarketMaking

variable {R V : Type}

namespace OrderLimits

/-- What the answer to a request makes of its placing: a rejection is no failure. -/
def verdict : Except (Error R) Unit → Except (Error R) Bool
  | .ok () => .ok true
  | .error (.orderRejected ..) => .ok false
  | .error e => .error e

/-- A placing that fails fails with what the order failed with. -/
theorem eq_error_of_verdict_eq_error {answer : Except (Error R) Unit} {e : Error R}
    (failed : verdict answer = .error e) : answer = .error e := by
  rcases answer with cause | _
  · cases cause <;> first | exact congrArg _ (Except.error.inj failed) | cases failed
  · cases failed

/-- The failure that an answer tells of. -/
def refusal? : Except (Error R) Unit → Option (Error R)
  | .ok () => none
  | .error e => some e

/-- A request was not refused if it was accepted. -/
@[simp] theorem refusal?_eq_none_iff {answer : Except (Error R) Unit} :
    refusal? answer = none ↔ answer = .ok () := by
  cases answer <;> simp [refusal?]

variable [Venue V R]

/-- An order is requested when its level is free, and the answer decides what becomes of it. -/
theorem place_of_free {request : OrderRequest R} {v : V}
    (free : (Venue.orders v).has request.id = false) :
    place request v = ⟨verdict (Venue.submit v request).1, (Venue.submit v request).2,
      [.orderRequested request (refusal? (Venue.submit v request).1)]⟩ := by
  unfold place
  rw [free, if_neg Bool.false_ne_true]
  rcases Venue.submit v request with ⟨e | _, w⟩
  · cases e <;> rfl
  · rfl

variable [Scalar R] {limits : OrderLimits R} {q : Quote R} {tick position : R} {side : Side} {v : V}
  {request : OrderRequest R}

/-- The order of the quote on a side, if that side is quoted and the limits admit it. -/
def wanted? (limits : OrderLimits R) (q : Quote R) (tick position : R) (side : Side) :
    Option (OrderRequest R) :=
  match q.on side with
  | some price =>
      if limits.admits position side then some (limits.request side price tick) else none
  | none => none

omit [Venue V R] in
/-- A side wants the order of its quote when the limits admit it. -/
theorem wanted?_eq_some_iff :
    limits.wanted? q tick position side = some request ↔
      ∃ price, q.on side = some price ∧ limits.admits position side = true ∧
        limits.request side price tick = request := by
  unfold wanted?
  cases q.on side with
  | none => simp
  | some price => simp

/-- The order that a side lacks: that of its quote, if the limits admit it and its level is free. -/
def missing? (limits : OrderLimits R) (q : Quote R) (tick position : R) (side : Side) (v : V) :
    Option (OrderRequest R) :=
  (limits.wanted? q tick position side).filter fun request ↦ !(Venue.orders v).has request.id

/-- A side lacks the order that it wants when the level of that order is free. -/
theorem missing?_eq_some_iff :
    limits.missing? q tick position side v = some request ↔
      limits.wanted? q tick position side = some request ∧
        (Venue.orders v).has request.id = false := by
  simp [missing?, Option.filter_eq_some_iff]

/-- A side lacks nothing when the level of the order that it wants is taken. -/
theorem missing?_eq_none_iff :
    limits.missing? q tick position side v = none ↔
      ∀ request, limits.wanted? q tick position side = some request →
        (Venue.orders v).has request.id = true := by
  simp [missing?, Option.filter_eq_none_iff]

/-- At a side that lacks nothing, nothing happens. -/
theorem placeSide_of_missing?_eq_none (complete : limits.missing? q tick position side v = none) :
    limits.placeSide q tick position side v = ⟨.ok false, v, []⟩ := by
  rw [missing?_eq_none_iff] at complete
  unfold wanted? at complete
  unfold placeSide
  split
  · next price quoted =>
    split
    · next admitted =>
      have taken : (Venue.orders v).has (limits.request side price tick).id = true := by
        apply complete
        simp [quoted, admitted]
      rw [place, if_pos taken]
    · rfl
  · rfl

/-- The order that a side lacks is requested, and nothing else happens. -/
theorem placeSide_of_missing?_eq_some
    (lacking : limits.missing? q tick position side v = some request) :
    limits.placeSide q tick position side v =
      ⟨verdict (Venue.submit v request).1, (Venue.submit v request).2,
        [.orderRequested request (refusal? (Venue.submit v request).1)]⟩ := by
  obtain ⟨wanted, free⟩ := missing?_eq_some_iff.mp lacking
  obtain ⟨price, quoted, admitted, rfl⟩ := wanted?_eq_some_iff.mp wanted
  simp only [placeSide, quoted, if_pos admitted]
  exact place_of_free free

end OrderLimits

end MarketMaking
