import MarketMaking.Order

/-!
# Order tables

The orders at a venue by identifier, in the order in which they were first entered.
-/

namespace MarketMaking

/-- Orders with the identifiers they are kept under. -/
abbrev OrderTable (R : Type) := List (OrderId × RestingOrder R)

namespace OrderTable

variable {R : Type}

/-- The order kept under `id`. -/
def get? (t : OrderTable R) (id : OrderId) : Option (RestingOrder R) :=
  (t.find? (·.1 = id)).map Prod.snd

/-- Is an order kept under `id`? -/
def has (t : OrderTable R) (id : OrderId) : Bool := t.any (·.1 = id)

/-- Change the order kept under `id`, if there is one. -/
def adjust (t : OrderTable R) (id : OrderId) (f : RestingOrder R → RestingOrder R) :
    OrderTable R :=
  t.map fun entry => if entry.1 = id then (entry.1, f entry.2) else entry

/-- Keep an order under `id`, in place of the one kept there before. -/
def put (t : OrderTable R) (id : OrderId) (order : RestingOrder R) : OrderTable R :=
  if t.has id then t.adjust id fun _ => order else t ++ [(id, order)]

/-- Take out the order kept under `id`. -/
def remove (t : OrderTable R) (id : OrderId) : OrderTable R := t.filter (·.1 ≠ id)

/-- Take out all orders that can no longer be filled. -/
def activeOnly (t : OrderTable R) : OrderTable R := t.filter (·.2.isActive)

/-- The entries by ascending identifier. -/
def ascending (t : OrderTable R) : OrderTable R :=
  t.mergeSort fun x y => x.1.tick ≤ y.1.tick

/-- An order is kept under an identifier if one is found there. -/
theorem has_eq_isSome_get? (t : OrderTable R) (id : OrderId) : t.has id = (t.get? id).isSome := by
  induction t with
  | nil => rfl
  | cons entry t ih =>
    simp only [has, get?, List.any_cons, List.find?_cons] at ih ⊢
    cases decide (entry.1 = id) <;> simp [ih]

/-- A change of an order shows under its identifier only. -/
theorem get?_adjust (t : OrderTable R) (id other : OrderId) (f : RestingOrder R → RestingOrder R) :
    (t.adjust id f).get? other = if id = other then (t.get? other).map f else t.get? other := by
  induction t with
  | nil => simp [adjust, get?]
  | cons entry t ih =>
    simp only [adjust, get?, List.map_cons, List.find?_cons] at ih ⊢
    by_cases same : id = other
    · by_cases h : entry.1 = id <;> simp_all
    · by_cases h : entry.1 = id <;> by_cases h' : entry.1 = other <;> simp_all

/-- An order that is put in is found under its identifier, and all else is as before. -/
theorem get?_put (t : OrderTable R) (id other : OrderId) (order : RestingOrder R) :
    (t.put id order).get? other = if id = other then some order else t.get? other := by
  unfold put
  rw [has_eq_isSome_get?]
  cases found : t.get? id with
  | some kept =>
    rw [Option.isSome_some, if_pos rfl, get?_adjust]
    split <;> simp_all
  | none =>
    rw [Option.isSome_none, if_neg Bool.false_ne_true]
    simp only [get?, Option.map_eq_none_iff] at found
    by_cases same : id = other
    · simp [get?, List.find?_append, ← same, found]
    · simp [get?, List.find?_append, same]

/-- After a removal nothing is found under the identifier, and all else is as before. -/
theorem get?_remove (t : OrderTable R) (id other : OrderId) :
    (t.remove id).get? other = if id = other then none else t.get? other := by
  induction t with
  | nil => simp [remove, get?]
  | cons entry t ih =>
    simp only [remove, get?, List.filter_cons, List.find?_cons] at ih ⊢
    by_cases same : id = other
    · by_cases h : entry.1 = id <;> simp_all
    · by_cases h : entry.1 = id <;> by_cases h' : entry.1 = other <;> simp_all

/-- What is left of a table are the entries whose orders are active. -/
theorem mem_activeOnly {t : OrderTable R} {entry : OrderId × RestingOrder R} :
    entry ∈ t.activeOnly ↔ entry ∈ t ∧ entry.2.isActive = true := by
  simp [activeOnly]

end OrderTable

namespace RestingOrder

variable {R : Type}

/-- The order after its cancellation. -/
def cancelled (order : RestingOrder R) : RestingOrder R := { order with status := .cancelled }

/-- The order after its execution. -/
def filled (order : RestingOrder R) : RestingOrder R := { order with status := .filled }

/-- The inventory after the execution of an order. -/
def inventoryAfter [Scalar R] (order : RestingOrder R) (position : R) : R :=
  match order.side with
  | .buy => position + order.qty
  | .sell => position - order.qty

/-- Does a trade reach this order? A buy reaches sell orders up to its price, a sell reaches buy
orders down to its price. -/
def reachedBy [Scalar R] (order : RestingOrder R) (trade : Trade R) : Bool :=
  match trade.side, order.side with
  | .buy, .sell => Scalar.le order.price trade.price
  | .sell, .buy => Scalar.le trade.price order.price
  | _, _ => false

end RestingOrder

end MarketMaking
