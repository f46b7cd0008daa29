import MarketMaking.Proofs.Binary64.Order

/-!
# Finite results

An infinity or the unknown number does not go away in a sum, a difference or a product. So where the
result is finite, both operands are.
-/

namespace MarketMaking.Binary64

open Float.Model Float.Model.UnpackedFloat

private theorem isFinite_of_isFinite_pack {f : UnpackedFloat}
    (finite : (Float.ofModel (Float.Model.pack f)).isFinite = true) : f.isFinite = true := by
  cases f with
  | notANumber => exact absurd finite (by decide)
  | infinity s => cases s <;> exact absurd finite (by decide)
  | zero s => rfl
  | finite s m e pos => rfl

variable {x y : Float}

/-- A finite sum has finite terms. -/
theorem isFinite_of_isFinite_add (finite : (x + y).isFinite = true) :
    x.isFinite = true ∧ y.isFinite = true := by
  have hunpacked {f g : UnpackedFloat}
      (finite : (UnpackedFloat.add Format.binary64 f g).isFinite = true) :
      f.isFinite = true ∧ g.isFinite = true := by
    cases f <;> cases g
    case infinity.infinity s t => cases s <;> cases t <;> cases finite
    all_goals first | exact ⟨rfl, rfl⟩ | cases finite
  exact hunpacked (isFinite_of_isFinite_pack finite)

/-- A finite difference has finite terms. -/
theorem isFinite_of_isFinite_sub (finite : (x - y).isFinite = true) :
    x.isFinite = true ∧ y.isFinite = true := by
  have hunpacked {f g : UnpackedFloat}
      (finite : (UnpackedFloat.sub Format.binary64 f g).isFinite = true) :
      f.isFinite = true ∧ g.isFinite = true := by
    cases f <;> cases g
    case infinity.infinity s t => cases s <;> cases t <;> cases finite
    all_goals first | exact ⟨rfl, rfl⟩ | cases finite
  exact hunpacked (isFinite_of_isFinite_pack finite)

/-- A finite product has finite factors. -/
theorem isFinite_of_isFinite_mul (finite : (x * y).isFinite = true) :
    x.isFinite = true ∧ y.isFinite = true := by
  have hunpacked {f g : UnpackedFloat}
      (finite : (UnpackedFloat.mul Format.binary64 f g).isFinite = true) :
      f.isFinite = true ∧ g.isFinite = true := by
    cases f <;> cases g <;> first | exact ⟨rfl, rfl⟩ | cases finite
  exact hunpacked (isFinite_of_isFinite_pack finite)

end MarketMaking.Binary64
