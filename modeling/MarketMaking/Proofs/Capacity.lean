import MarketMaking.Proofs.Chronicle
import MarketMaking.Proofs.Tape

/-!
# The capacity of a history

A history never holds more samples than fit: a step is recorded where there is room, or after old
samples made room, or not at all. The history of a strategy has the capacity and the policy of its
configuration, so that only one that may not drop samples ever refuses a step.
-/

namespace MarketMaking

variable {R V : Type} [Scalar R]

namespace ArrivalHistory

section Size

variable {h : ArrivalHistory R} (book : Book R) (trades : List (Trade R))

/-- A step leaves one sample more than there were, or one more than are kept. -/
theorem size_add (h : ArrivalHistory R) :
    (h.add book trades).size = if h.capacity ≤ h.size then min h.retain h.size + 1
      else h.size + 1 := by
  unfold add
  simp only [isFull, decide_eq_true_eq]
  split
  · rw [size_push, size_compact]
  · exact size_push h book trades

/-- A step that is not refused leaves no more samples than fit. -/
theorem size_add_le (room : h.refusal? = none) (le : h.size ≤ h.capacity) :
    (h.add book trades).size ≤ (h.add book trades).capacity := by
  rw [refusal?_eq_none_iff] at room
  rw [size_add, capacity_add]
  split <;> omega

omit [Scalar R] in
/-- A step is refused by a full history that may not drop samples, or would keep them all. -/
theorem refusal?_eq_ite (le : h.size ≤ h.capacity) (keeps : h.retain ≤ h.capacity) :
    h.refusal? = if h.size = h.capacity ∧ (h.overflow = .fail ∨ h.retain = h.capacity) then
      some (.historyCapacityExceeded h.capacity) else none := by
  have hfull : h.isFull = decide (h.size = h.capacity) := by
    rw [isFull, decide_eq_decide]
    omega
  rw [refusal?, hfull]
  cases h.overflow with
  | fail => simp
  | compact =>
    congr 1
    simp
    omega

end Size

/-- The history that `c` asks for, with no more samples than fit. -/
structure Suits (h : ArrivalHistory R) (c : Config R) : Prop where
  capacity : h.capacity = c.historyCapacity
  overflow : h.overflow = c.historyOverflow
  retain : h.retain = c.calibrationWindow
  size_le : h.size ≤ h.capacity

namespace Suits

variable {h : ArrivalHistory R} {c : Config R}

/-- A strategy that was accepted begins with such a history. -/
theorem fresh (accepted : c.Accepted) : (Strategy.fresh c).history.Suits c where
  capacity := rfl
  overflow := rfl
  retain := Nat.min_eq_left accepted.capacity
  size_le := Nat.zero_le _

/-- A step that is not refused leaves such a history. -/
theorem add (suits : h.Suits c) (room : h.refusal? = none) (book : Book R)
    (trades : List (Trade R)) : (h.add book trades).Suits c where
  capacity := (capacity_add h book trades).trans suits.capacity
  overflow := (overflow_add h book trades).trans suits.overflow
  retain := (retain_add h book trades).trans suits.retain
  size_le := size_add_le book trades room suits.size_le

/-- A step is refused exactly by a full history that may not drop samples. -/
theorem refusal?_eq (suits : h.Suits c) (accepted : c.Accepted) :
    h.refusal? = if c.historyOverflow = .fail ∧ h.size = c.historyCapacity then
      some (.historyCapacityExceeded c.historyCapacity) else none := by
  have hkeeps : h.retain ≤ h.capacity := by
    rw [suits.retain, suits.capacity]
    exact accepted.capacity
  rw [refusal?_eq_ite suits.size_le hkeeps, suits.capacity, suits.overflow, suits.retain]
  cases hpolicy : c.historyOverflow with
  | fail => simp
  | compact => simp [Nat.ne_of_lt (accepted.compact hpolicy)]

end Suits

end ArrivalHistory

variable [Venue V R]

namespace Strategy

/-- A step leaves the history that the configuration asks for. -/
theorem suits_step {s : Strategy R} {c : Config R} (suits : s.history.Suits c) (v : V) :
    (s.step v).strategy.history.Suits c := by
  cases hr : s.history.refusal? with
  | some e =>
    rw [step_of_refusal hr]
    exact suits
  | none =>
    rw [history_step hr]
    exact suits.add hr _ _

end Strategy

/-- Whatever has been done, the history is one that the configuration asks for. -/
theorem Chronicle.suits {c : Config R} {past : List (Deed R V)} {s : Strategy R} {v : V}
    (chronicle : Chronicle c past s v) : s.history.Suits c := by
  induction chronicle with
  | start v started =>
    obtain ⟨accepted, rfl⟩ := Strategy.start_eq_ok_iff.mp started
    exact .fresh accepted
  | market _ w ih => exact ih
  | step _ ih => exact Strategy.suits_step ih _
  | finish _ ih =>
    rw [Strategy.finish_frame]
    exact ih

end MarketMaking
