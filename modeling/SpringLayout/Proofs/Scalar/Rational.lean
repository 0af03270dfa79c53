import Mathlib.Algebra.Order.Field.Rat
import SpringLayout.Proofs.Scalar.Order

/-!
Exact rational numbers as a scalar.

Every operation is that of ℚ, and there is neither an infinite number nor a NaN, so comparisons are
those of a linear order (`OrderedScalar`). Unlike over the real numbers, everything can be computed.
-/

namespace SpringLayout

instance : Scalar ℚ where
  beq a b := decide (a = b)
  decidableLe a b := inferInstanceAs (Decidable (a ≤ b))
  decidableLt a b := inferInstanceAs (Decidable (a < b))
  isFinite _ := true

@[simp] theorem Scalar.isNaN_rat (a : ℚ) : isNaN a = false := by
  change (!decide (a = a)) = false
  simp

instance : OrderedScalar ℚ where
  le_trans := le_trans
  le_of_lt := le_of_lt
  le_of_not_lt _ _ := not_lt.mp
  isNaN_of_beq _ := ⟨Scalar.isNaN_rat _, Scalar.isNaN_rat _⟩
  isNaN_sub _ _ := Scalar.isNaN_rat _
  isNaN_sq_add_sq _ _ := Scalar.isNaN_rat _

end SpringLayout
