import MarketMaking.Proofs.Session

/-!
# Chronicles

A chronicle is a session together with its past: every deed of the strategy with the state that it
was done in, and so with all that happened. The market may do anything to the venue between two
deeds, and steps that fail are followed by others.
-/

namespace MarketMaking

variable {R V : Type}

/-- What a strategy did in some state: it made a step at a venue, or it closed its calibration at
the end of the data. -/
inductive Deed (R V : Type) where
  | step (s : Strategy R) (v : V)
  | finish (s : Strategy R)

variable [Scalar R] [Venue V R]

namespace Deed

/-- What happened. -/
def events : Deed R V → List (Event R)
  | step s v => (s.step v).events
  | finish s => s.finish.2

/-- Was this a step that was completed? -/
def isCompleted : Deed R V → Bool
  | step s v => (s.step v).result.isOk
  | finish _ => false

/-- Was this a step that failed? -/
def isFailed : Deed R V → Bool
  | step s v => !(s.step v).result.isOk
  | finish _ => false

end Deed

/-- The steps of `s` and its successors at some venues in turn. -/
def Strategy.stepsAt (s : Strategy R) : List V → List (Deed R V)
  | [] => []
  | v :: vs => .step s v :: (s.step v).strategy.stepsAt vs

/-- The strategy after steps at some venues in turn. -/
def Strategy.after (s : Strategy R) (vs : List V) : Strategy R :=
  vs.foldl (fun s v ↦ (s.step v).strategy) s

/-- All that happened, in order. -/
def told (past : List (Deed R V)) : List (Event R) := past.flatMap Deed.events

@[simp] theorem told_nil : told ([] : List (Deed R V)) = [] := rfl

@[simp] theorem told_append (xs ys : List (Deed R V)) : told (xs ++ ys) = told xs ++ told ys :=
  List.flatMap_append

@[simp] theorem told_singleton (deed : Deed R V) : told [deed] = deed.events :=
  List.flatMap_singleton _ _

/-- The strategies on `c` and the venues that can be there after the deeds of `past`. -/
inductive Chronicle (c : Config R) : List (Deed R V) → Strategy R → V → Prop where
  | start {s : Strategy R} (v : V) : Strategy.start c = .ok s → Chronicle c [] s v
  | market {past : List (Deed R V)} {s : Strategy R} {v : V} :
      Chronicle c past s v → (w : V) → Chronicle c past s w
  | step {past : List (Deed R V)} {s : Strategy R} {v : V} : Chronicle c past s v →
      Chronicle c (past ++ [.step s v]) (s.step v).strategy (s.step v).venue
  | finish {past : List (Deed R V)} {s : Strategy R} {v : V} : Chronicle c past s v →
      Chronicle c (past ++ [.finish s]) s.finish.1 v

namespace Chronicle

variable {c : Config R} {past : List (Deed R V)} {s : Strategy R} {v : V}

/-- Without its past a chronicle is a session with a market that may do anything. -/
theorem session (chronicle : Chronicle c past s v) :
    ∃ v₀, Session (fun _ _ ↦ True) c v₀ s v := by
  induction chronicle with
  | start v started => exact ⟨v, .start started⟩
  | market _ w ih =>
    obtain ⟨v₀, session⟩ := ih
    exact ⟨v₀, session.market trivial⟩
  | step _ ih =>
    obtain ⟨v₀, session⟩ := ih
    exact ⟨v₀, session.step⟩
  | finish _ ih =>
    obtain ⟨v₀, session⟩ := ih
    exact ⟨v₀, session.finish⟩

/-- A strategy keeps its configuration. -/
theorem config_eq (chronicle : Chronicle c past s v) : s.config = c :=
  chronicle.session.choose_spec.config_eq

/-- There are chronicles on accepted configurations only. -/
theorem accepted (chronicle : Chronicle c past s v) : c.Accepted :=
  chronicle.session.choose_spec.accepted

/-- What holds before the first step and is kept by every completed step holds after completed steps
only. -/
@[elab_as_elim]
theorem completed_induction {P : List (Deed R V) → Strategy R → Prop}
    (chronicle : Chronicle c past s v) (completed : ∀ deed ∈ past, deed.isCompleted = true)
    (fresh : P [] (Strategy.fresh c))
    (step : ∀ past s v, Chronicle c past s v → (∀ deed ∈ past, deed.isCompleted = true) →
      (s.step v).result.isOk = true → P past s → P (past ++ [.step s v]) (s.step v).strategy) :
    P past s := by
  induction chronicle with
  | start v started =>
    obtain ⟨-, rfl⟩ := Strategy.start_eq_ok_iff.mp started
    exact fresh
  | market _ w ih => exact ih completed
  | step chronicle ih =>
    obtain ⟨hpast, hlast⟩ := List.forall_mem_append.mp completed
    exact step _ _ _ chronicle hpast (hlast _ List.mem_cons_self) (ih hpast)
  | finish _ ih =>
    obtain ⟨-, hlast⟩ := List.forall_mem_append.mp completed
    cases hlast _ List.mem_cons_self

/-- Steps can be made at any venues in turn, as the market may do anything in between. -/
theorem stepsAt (chronicle : Chronicle c past s v) (vs : List V) :
    ∃ w, Chronicle c (past ++ s.stepsAt vs) (s.after vs) w := by
  induction vs generalizing past s v with
  | nil =>
    rw [Strategy.stepsAt, List.append_nil]
    exact ⟨v, chronicle⟩
  | cons w vs ih =>
    obtain ⟨w', next⟩ := ih (chronicle.market w).step
    rw [List.append_assoc] at next
    exact ⟨w', next⟩

/-- On a configuration without a defect, steps can be made at any venues from the start. -/
theorem of_stepsAt (sound : c.defect? = none) (v : V) (vs : List V) :
    ∃ w, Chronicle c ((Strategy.fresh c).stepsAt vs) ((Strategy.fresh c).after vs) w :=
  (Chronicle.start v (Strategy.start_eq_fresh sound)).stepsAt vs

end Chronicle

end MarketMaking
