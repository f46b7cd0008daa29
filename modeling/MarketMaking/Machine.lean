import MarketMaking.Power

/-!
# Operations with a domain

What a machine does with counts and tables has a domain: a difference must not be negative, a sum
must fit in a word, a position must lie in its table. Here each of these operations has a result
inside its domain and none outside. To be turned into a signed word is no such operation: an integer
beyond the range of signed words wraps around.
-/

namespace MarketMaking.Machine

variable {α : Type}

/-- A sum that fits in a word. -/
def add? (m n : Nat) : Option Nat := if m + n < pow2 64 then some (m + n) else none

/-- A difference that is not negative. -/
def sub? (m n : Nat) : Option Nat := if n ≤ m then some (m - n) else none

/-- A difference of signed words that is one itself. -/
def signedSub? (m n : Int) : Option Int :=
  if -pow2 63 ≤ m - n ∧ m - n < pow2 63 then some (m - n) else none

/-- The signed word that stands for an integer. -/
def signed (n : Int) : Int := n.bmod (pow2 64)

/-- The entries from a position on, which may be the end. They are what a slice shows and what is
left when the entries before the position are drained. -/
def from? (xs : List α) (start : Nat) : Option (List α) :=
  if start ≤ xs.length then some (xs.drop start) else none

/-- Change the entry at a position by an operation that may have a domain of its own. -/
def update? (xs : Array α) (i : Nat) (f : α → Option α) : Option (Array α) := do
  let x ← xs[i]?
  let y ← f x
  return xs.modify i fun _ ↦ y

theorem add?_eq_some {m n : Nat} (lt : m + n < pow2 64) : add? m n = some (m + n) := if_pos lt

theorem sub?_eq_some {m n : Nat} (le : n ≤ m) : sub? m n = some (m - n) := if_pos le

theorem signedSub?_eq_some {m n : Int} (ge : -pow2 63 ≤ m - n) (lt : m - n < pow2 63) :
    signedSub? m n = some (m - n) := if_pos ⟨ge, lt⟩

theorem from?_eq_some {xs : List α} {start : Nat} (le : start ≤ xs.length) :
    from? xs start = some (xs.drop start) := if_pos le

theorem update?_eq_some {xs : Array α} {i : Nat} {x : α} {f : α → Option α} {g : α → α}
    (found : xs[i]? = some x) (changed : f x = some (g x)) :
    update? xs i f = some (xs.modify i g) := by
  have hmodify : xs.modify i (fun _ ↦ g x) = xs.modify i g := by
    apply Array.ext_getElem?
    intro j
    rw [Array.getElem?_modify, Array.getElem?_modify]
    by_cases same : i = j
    · subst same
      rw [if_pos rfl, if_pos rfl, found]
      rfl
    · rw [if_neg same, if_neg same]
  rw [update?, found, Option.bind_eq_bind, Option.bind_some, changed, ← hmodify]
  rfl

/-- Below the least signed word there is none. -/
theorem signedSub?_least : signedSub? (-pow2 63) 1 = none := by decide

/-- An integer in the range of signed words is the one that stands for it. -/
theorem signed_eq_self {n : Int} (ge : -pow2 63 ≤ n) (lt : n < pow2 63) : signed n = n := by
  have h63 : pow2 63 = 9223372036854775808 := rfl
  have h64 : pow2 64 = 18446744073709551616 := rfl
  rw [h63] at ge lt
  rw [signed, h64, Int.bmod]
  omega

end MarketMaking.Machine
