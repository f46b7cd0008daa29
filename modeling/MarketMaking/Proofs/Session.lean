import MarketMaking.Proofs.Acceptance
import MarketMaking.Proofs.Step
import MarketMaking.Strategy.Run

/-!
# Sessions

A session is any course that a strategy and its venue can take together: the market moves in some
way that it may, the strategy is stepped, or the data is said to have come to its end. Nothing is
assumed of the order of these, nor of the results of the steps.
-/

namespace MarketMaking

variable {R V : Type} [Scalar R] [Venue V R]

/-- The states that a strategy on `c` and a venue, starting at `v₀`, can come to when the market
moves the venue as `market` allows. -/
inductive Session (market : V → V → Prop) (c : Config R) (v₀ : V) : Strategy R → V → Prop where
  | start {s : Strategy R} : Strategy.start c = .ok s → Session market c v₀ s v₀
  | market {s : Strategy R} {v w : V} :
      Session market c v₀ s v → market v w → Session market c v₀ s w
  | step {s : Strategy R} {v : V} :
      Session market c v₀ s v → Session market c v₀ (s.step v).strategy (s.step v).venue
  | finish {s : Strategy R} {v : V} :
      Session market c v₀ s v → Session market c v₀ s.finish.1 v

namespace Session

variable {market : V → V → Prop} {c : Config R} {v₀ : V} {s : Strategy R} {v : V}

/-- A strategy keeps its configuration. -/
theorem config_eq (session : Session market c v₀ s v) : s.config = c := by
  induction session with
  | start started =>
    obtain ⟨-, rfl⟩ := Strategy.start_eq_ok_iff.mp started
    rfl
  | market _ _ ih => exact ih
  | step _ ih =>
    rw [Strategy.config_step, ih]
  | finish _ ih =>
    rw [Strategy.finish_frame]
    exact ih

/-- There is a session on accepted configurations only. -/
theorem accepted (session : Session market c v₀ s v) : c.Accepted := by
  induction session with
  | start started => exact (Strategy.start_eq_ok_iff.mp started).1
  | market _ _ ih => exact ih
  | step _ ih => exact ih
  | finish _ ih => exact ih

/-- What holds of the venue at the start, whatever the market does, and after every step holds
throughout. -/
theorem venue_invariant {P : V → Prop} (session : Session market c v₀ s v) (start : P v₀)
    (moved : ∀ v w, P v → market v w → P w)
    (stepped : ∀ (s : Strategy R) v, s.config = c → P v → P (s.step v).venue) : P v := by
  induction session with
  | start _ => exact start
  | market _ move ih => exact moved _ _ ih move
  | step session ih => exact stepped _ _ session.config_eq ih
  | finish _ ih => exact ih

/-- A market that may do less has fewer sessions. -/
theorem mono {market' : V → V → Prop} (session : Session market c v₀ s v)
    (allowed : ∀ v w, market v w → market' v w) : Session market' c v₀ s v := by
  induction session with
  | start started => exact .start started
  | market _ move ih => exact .market ih (allowed _ _ move)
  | step _ ih => exact .step ih
  | finish _ ih => exact .finish ih

/-- A run ends in a session, wherever it ends, when the market may do what the clock brings. -/
theorem runFrom {K : Type} [Recorder K R]
    (clock : ∀ s v, Session market c v₀ s v → market v (Venue.elapse v c.stepNanos).2)
    (session : Session market c v₀ s v) (horizon : Nat) (k : K) (past : Array (Event R)) :
    Session market c v₀ (s.runFrom horizon v k past).strategy
      (s.runFrom horizon v k past).venue := by
  have hconclude {s : Strategy R} {v : V} (session : Session market c v₀ s v) (k : K)
      (past : Array (Event R)) : Session market c v₀ (s.conclude v k past).strategy
        (s.conclude v k past).venue := by
    unfold Strategy.conclude
    simp only
    split <;> exact .finish session
  induction horizon generalizing s v k past with
  | zero => exact hconclude session k past
  | succ horizon ih =>
    have hmoved := session.market (clock s v session)
    unfold Strategy.runFrom
    rw [session.config_eq]
    split
    · next ended =>
      rw [ended] at hmoved
      exact hconclude hmoved k past
    · next ticked =>
      rw [ticked] at hmoved
      have hstepped := hmoved.step
      simp only
      split
      · exact hstepped
      · split
        · exact hstepped
        · exact ih hstepped _ _

end Session

end MarketMaking
