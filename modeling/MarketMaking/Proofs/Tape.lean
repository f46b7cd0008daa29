import MarketMaking.Estimation.History

/-!
# Histories as the end of a tape

A history of bounded memory holds the end of a tape on which the sample of every recorded step is
written. Dropping samples moves the beginning of what is held and leaves the tape alone, so all that
a reader of the last `n` samples can notice is whether one of these has been dropped.
-/

namespace MarketMaking.ArrivalHistory

variable {R : Type} [Scalar R]

/-- The samples held are those of `tape` behind the ones that were dropped. -/
structure Holds (h : ArrivalHistory R) (tape : List (Sample R)) : Prop where
  toList_eq : h.samples.toList = tape.drop h.dropped
  dropped_le : h.dropped ≤ tape.length

/-- None of the last `n` samples has been dropped. -/
def Keeps (h : ArrivalHistory R) (n : Nat) : Prop := h.dropped = 0 ∨ n ≤ h.size

section Tape

variable {h : ArrivalHistory R} {tape : List (Sample R)} {n : Nat}

omit [Scalar R] in
/-- Samples are taken from some position up to the last one. -/
theorem toList_extract_size (h : ArrivalHistory R) (start : Nat) :
    (h.samples.extract start h.size).toList = h.samples.toList.drop start := by
  have hl : h.size = h.samples.toList.length := Array.length_toList.symm
  rw [Array.toList_extract, List.extract_eq_take_drop, hl, ← List.length_drop, List.take_length]

omit [Scalar R] in
/-- What is held of a tape is what has not been dropped. -/
theorem Holds.size_eq (hold : h.Holds tape) : h.size = tape.length - h.dropped := by
  rw [size, ← Array.length_toList, hold.toList_eq, List.length_drop]

omit [Scalar R] in
/-- As many steps were recorded as the tape has samples. -/
theorem Holds.recorded_eq (hold : h.Holds tape) : h.recorded = tape.length := by
  have hs := hold.size_eq
  have hd := hold.dropped_le
  rw [recorded]
  omega

omit [Scalar R] in
/-- A window is full as soon as that many steps were recorded, as long as its samples are kept. -/
theorem Keeps.le_size_iff (keep : h.Keeps n) : n ≤ h.size ↔ n ≤ h.recorded := by
  rw [recorded]
  rcases keep with hd | hn <;> omega

omit [Scalar R] in
/-- The last samples of the history are those of the tape while they are kept. -/
theorem Holds.last_eq (hold : h.Holds tape) (keep : h.Keeps n) :
    h.last n = tape.drop (tape.length - n) := by
  have hs := hold.size_eq
  have hd := hold.dropped_le
  rw [last, toList_extract_size, hold.toList_eq, List.drop_drop]
  congr 1
  rcases keep with h0 | hn <;> omega

omit [Scalar R] in
/-- The empty history holds the empty tape. -/
theorem holds_empty (capacity : Nat) (overflow : HistoryOverflow) (retain : Nat) :
    (empty capacity overflow retain : ArrivalHistory R).Holds [] :=
  ⟨rfl, Nat.le_refl 0⟩

omit [Scalar R] in
/-- Dropping old samples leaves the tape as it is. -/
theorem Holds.compact (hold : h.Holds tape) : h.compact.Holds tape := by
  have hs := hold.size_eq
  have hd := hold.dropped_le
  constructor
  · simp only [ArrivalHistory.compact]
    rw [toList_extract_size, hold.toList_eq, List.drop_drop]
  · simp only [ArrivalHistory.compact]
    omega

/-- A new sample is written at the end of the tape. -/
theorem Holds.push (hold : h.Holds tape) (book : Book R) (trades : List (Trade R)) :
    (h.push book trades).Holds (tape ++ [h.sampleOf book trades]) := by
  have hd := hold.dropped_le
  constructor
  · simp only [ArrivalHistory.push]
    rw [Array.toList_push, hold.toList_eq, List.drop_append_of_le_length hd]
  · simp only [ArrivalHistory.push, List.length_append]
    omega

/-- Whether old samples are dropped or not, the step's sample is written at the end of the tape. -/
theorem Holds.add (hold : h.Holds tape) (book : Book R) (trades : List (Trade R)) :
    (h.add book trades).Holds (tape ++ [h.sampleOf book trades]) := by
  unfold ArrivalHistory.add
  split
  · exact hold.compact.push book trades
  · exact hold.push book trades

end Tape

section Frame

variable (h : ArrivalHistory R) (book : Book R) (trades : List (Trade R))

/-- Recording a step leaves the capacity as it is. -/
@[simp] theorem capacity_add : (h.add book trades).capacity = h.capacity := by
  unfold add
  split <;> rfl

/-- Recording a step leaves the policy as it is. -/
@[simp] theorem overflow_add : (h.add book trades).overflow = h.overflow := by
  unfold add
  split <;> rfl

/-- Recording a step leaves the number of samples to keep as it is. -/
@[simp] theorem retain_add : (h.add book trades).retain = h.retain := by
  unfold add
  split <;> rfl

/-- After a step the latest middle is that of its book. -/
@[simp] theorem mid_add : (h.add book trades).mid = some book.mid := by
  unfold add
  split <;> rfl

/-- A history with room drops nothing. -/
theorem dropped_add_of_room (room : h.size < h.capacity) :
    (h.add book trades).dropped = h.dropped := by
  have hf : h.isFull = false := by simpa [isFull] using room
  rw [add, if_neg (by simp [hf])]
  rfl

/-- A history with room holds one sample more after a step. -/
theorem size_add_of_room (room : h.size < h.capacity) : (h.add book trades).size = h.size + 1 := by
  have hf : h.isFull = false := by simpa [isFull] using room
  rw [add, if_neg (by simp [hf]), size_push]

/-- A history that keeps its latest samples when it drops the others never loses one of them. -/
theorem Keeps.add {h : ArrivalHistory R} {n : Nat} (keep : h.Keeps n) (retain : n ≤ h.retain)
    (fits : n ≤ h.capacity) (book : Book R) (trades : List (Trade R)) :
    (h.add book trades).Keeps n := by
  unfold ArrivalHistory.add
  split
  · next hf =>
    have hc : h.capacity ≤ h.size := by simpa [isFull] using hf
    right
    rw [size_push, size_compact]
    omega
  · rcases keep with hd | hn
    · exact .inl hd
    · right
      rw [size_push]
      omega

end Frame

end MarketMaking.ArrivalHistory
