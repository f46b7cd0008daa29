import MarketMaking.Proofs.Orderly
import MarketMaking.Venue.RandomWalk
import MarketMaking.Venue.Replay

/-!
# Two orderly venues

The replaying venue and the random market are orderly in all states that keep no two orders under
one identifier. That is a matter of the order table: entering, changing and dropping orders keeps
its identifiers distinct, and an order that is no longer active shows in no active entry.
-/

namespace MarketMaking

/-! ### The order table -/

namespace OrderTable

variable {R : Type} {t : OrderTable R} {id : OrderId}

/-- Changing an order changes no identifier. -/
theorem keys_adjust (t : OrderTable R) (id : OrderId) (f : RestingOrder R → RestingOrder R) :
    (t.adjust id f).map Prod.fst = t.map Prod.fst := by
  unfold adjust
  rw [List.map_map]
  apply List.map_congr_left
  intro entry _
  rw [Function.comp_apply]
  split <;> rfl

/-- Entering an order keeps the identifiers distinct. -/
theorem nodup_put (order : RestingOrder R) (nodup : (t.map Prod.fst).Nodup) :
    ((t.put id order).map Prod.fst).Nodup := by
  unfold put
  split
  · rw [keys_adjust]
    exact nodup
  · next absent =>
    rw [List.map_append, List.nodup_append]
    refine ⟨nodup, List.pairwise_singleton _ _, ?_⟩
    intro key hkey other hother
    obtain ⟨entry, hmem, rfl⟩ := List.mem_map.mp hkey
    rw [List.mem_singleton.mp hother]
    intro heq
    apply absent
    exact List.any_eq_true.mpr ⟨entry, hmem, decide_eq_true heq⟩

/-- Dropping inactive orders keeps the identifiers distinct. -/
theorem nodup_activeOnly (nodup : (t.map Prod.fst).Nodup) :
    (t.activeOnly.map Prod.fst).Nodup :=
  (List.filter_sublist.map Prod.fst).nodup nodup

/-- With distinct identifiers an order is found under its own. -/
theorem get?_of_mem {order : RestingOrder R} (nodup : (t.map Prod.fst).Nodup)
    (mem : (id, order) ∈ t) : t.get? id = some order := by
  induction t with
  | nil => cases mem
  | cons head tail ih =>
    rw [List.map_cons, List.nodup_cons] at nodup
    unfold get? at ih ⊢
    rw [List.find?_cons]
    rcases List.mem_cons.mp mem with rfl | htail
    · rw [decide_eq_true rfl]
      rfl
    · have hne : head.1 ≠ id := by
        intro heq
        exact nodup.1 (List.mem_map.mpr ⟨_, htail, heq.symm⟩)
      rw [decide_eq_false hne]
      exact ih nodup.2 htail

/-- An order that is found is kept under the identifier. -/
theorem mem_of_get? {order : RestingOrder R} (found : t.get? id = some order) :
    (id, order) ∈ t := by
  unfold get? at found
  obtain ⟨entry, hfind, rfl⟩ := Option.map_eq_some_iff.mp found
  have hholds := List.find?_some hfind
  have hid : entry.1 = id := of_decide_eq_true hholds
  rw [← hid]
  exact List.mem_of_find?_eq_some hfind

/-- With distinct identifiers the orders that are left are found where they were. -/
theorem get?_activeOnly (nodup : (t.map Prod.fst).Nodup) (id : OrderId) :
    t.activeOnly.get? id = (t.get? id).filter (·.isActive) := by
  apply Option.ext
  intro order
  rw [Option.filter_eq_some_iff]
  constructor
  · intro found
    obtain ⟨hmem, hactive⟩ := mem_activeOnly.mp (mem_of_get? found)
    exact ⟨get?_of_mem nodup hmem, hactive⟩
  · rintro ⟨hfound, hactive⟩
    exact get?_of_mem (nodup_activeOnly nodup) (mem_activeOnly.mpr ⟨mem_of_get? hfound, hactive⟩)

/-- An order is active after a change that ends an order if it was active before and is not the one
that was changed. -/
theorem mem_activeOnly_adjust {f : RestingOrder R → RestingOrder R}
    (ended : ∀ order, (f order).isActive = false) {entry : OrderId × RestingOrder R} :
    entry ∈ (t.adjust id f).activeOnly ↔ entry ∈ t.activeOnly ∧ entry.1 ≠ id := by
  rw [mem_activeOnly, mem_activeOnly, adjust, List.mem_map]
  constructor
  · rintro ⟨⟨before, hmem, rfl⟩, hactive⟩
    split at hactive
    · rw [ended] at hactive
      cases hactive
    · next hne =>
      rw [if_neg hne]
      exact ⟨⟨hmem, hactive⟩, hne⟩
  · rintro ⟨⟨hmem, hactive⟩, hne⟩
    exact ⟨⟨entry, hmem, if_neg hne⟩, hactive⟩

/-- An order is active after one was entered if it is that order or was active before. -/
theorem activeOnly_put_subset (order : RestingOrder R) :
    (t.put id order).activeOnly ⊆ (id, order) :: t.activeOnly := by
  intro entry mem
  rw [mem_activeOnly] at mem
  obtain ⟨hput, hactive⟩ := mem
  rw [List.mem_cons, mem_activeOnly]
  unfold put at hput
  split at hput
  · obtain ⟨before, hmem, rfl⟩ := List.mem_map.mp hput
    split
    · next heq =>
      left
      rw [heq]
    · next hne =>
      rw [if_neg hne] at hactive
      exact .inr ⟨hmem, hactive⟩
  · rcases List.mem_append.mp hput with hold | hnew
    · exact .inr ⟨hold, hactive⟩
    · exact .inl (List.mem_singleton.mp hnew)

end OrderTable

/-! ### The replaying venue -/

/-- The replaying venue is orderly while it keeps no two orders under one identifier. -/
theorem ReplayVenue.orderly {R : Type} [Scalar R] (tick : R) :
    Venue.Orderly (fun v : ReplayVenue R ↦ (v.orders.map Prod.fst).Nodup ∧ v.tickSize = tick)
      tick where
  good_clearTrades good := good
  good_clearInactive good := ⟨OrderTable.nodup_activeOnly good.1, good.2⟩
  good_cancel {v} id good := by
    simp only [Venue.cancel, ReplayVenue.cancel]
    split
    · refine ⟨?_, good.2⟩
      rw [OrderTable.keys_adjust]
      exact good.1
    · exact good
  good_submit {v} request good := by
    simp only [Venue.submit, ReplayVenue.submit]
    split
    · exact good
    · exact ⟨OrderTable.nodup_put request.accepted good.1, good.2⟩
  distinct good := good.1
  tickSize good := good.2
  clearTrades _ := List.Subset.refl _
  clearInactive {v} _ := by
    intro entry mem
    exact (OrderTable.mem_activeOnly.mp mem).1
  cancel {v} id _ := by
    simp only [Venue.cancel, ReplayVenue.cancel]
    split
    · intro entry mem
      exact ((OrderTable.mem_activeOnly_adjust fun _ ↦ rfl).mp mem).1
    · exact List.Subset.refl _
  cancelled {v id order} good mem cancellable := by
    obtain ⟨hmem, hactive⟩ := OrderTable.mem_activeOnly.mp mem
    have hfound : v.orders.get? id = some order := OrderTable.get?_of_mem good.1 hmem
    intro entry left
    simp only [Venue.cancel, ReplayVenue.cancel, hfound, Option.any_some, hactive, cancellable,
      Bool.and_self, if_true] at left
    exact ((OrderTable.mem_activeOnly_adjust fun _ ↦ rfl).mp left).2
  submit {v} request _ := by
    simp only [Venue.submit, ReplayVenue.submit]
    split
    · exact List.subset_cons_self _ _
    · exact OrderTable.activeOnly_put_subset request.accepted

/-! ### The random market -/

/-- The random market is orderly while it keeps no two orders under one identifier. -/
theorem RandomWalk.orderly :
    Venue.Orderly (fun v : RandomWalk ↦ (v.orders.map Prod.fst).Nodup) RandomWalk.tickSize where
  good_clearTrades good := good
  good_clearInactive good := OrderTable.nodup_activeOnly good
  good_cancel {v} id good := by
    simp only [Venue.cancel, RandomWalk.cancel]
    split
    · rw [OrderTable.keys_adjust]
      exact good
    · exact good
  good_submit request good := OrderTable.nodup_put request.accepted good
  distinct good := good
  tickSize _ := rfl
  clearTrades _ := List.Subset.refl _
  clearInactive {v} _ := by
    intro entry mem
    exact (OrderTable.mem_activeOnly.mp mem).1
  cancel {v} id _ := by
    simp only [Venue.cancel, RandomWalk.cancel]
    split
    · intro entry mem
      exact ((OrderTable.mem_activeOnly_adjust fun _ ↦ rfl).mp mem).1
    · exact List.Subset.refl _
  cancelled {v id order} good mem _ := by
    obtain ⟨hmem, hactive⟩ := OrderTable.mem_activeOnly.mp mem
    have hfound : v.orders.get? id = some order := OrderTable.get?_of_mem good hmem
    intro entry left
    simp only [Venue.cancel, RandomWalk.cancel, hfound, Option.any_some, hactive, if_true] at left
    exact ((OrderTable.mem_activeOnly_adjust fun _ ↦ rfl).mp left).2
  submit request _ := OrderTable.activeOnly_put_subset request.accepted

end MarketMaking
