import Mathlib.Analysis.SpecialFunctions.Sqrt
import Mathlib.Analysis.SpecialFunctions.Trigonometric.Basic
import SpringLayout.Proofs.Scalar.Sign
import SpringLayout.Scalar

/-!
Exact real numbers as a scalar.

Every operation is that of ℝ, comparisons are decided classically, and there is neither an infinite
number nor a NaN. A quotient by zero is zero and so is the root of a negative number, as in Mathlib.
Signs obey their laws (`SignSymmetric`) with nothing lost: opposite numbers are each other's
negatives.
-/

namespace SpringLayout

noncomputable instance : PolarScalar ℝ where
  beq a b := decide (a = b)
  decidableLe := Real.decidableLE
  decidableLt := Real.decidableLT
  isFinite _ := true
  sqrt := Real.sqrt
  cos := Real.cos
  sin := Real.sin

namespace Scalar

@[simp] theorem isNaN_real (a : ℝ) : isNaN a = false := by
  change (!decide (a = a)) = false
  simp

theorem lesser_real (a b : ℝ) : lesser a b = min a b := by
  rw [lesser, isNaN_real, min_comm, min_def_lt]
  rfl

theorem greater_real (a b : ℝ) : greater a b = max a b := by
  rw [greater, isNaN_real, max_def_lt]
  rfl

theorem vanishes_real_iff {a : ℝ} : Vanishes a ↔ a = 0 := by
  rw [Vanishes, isNaN_real, Nat.cast_zero]
  change decide (a = 0) = true ∨ false = true ↔ a = 0
  simp

theorem isSum_real (a : ℝ) : IsSum a := by
  rw [IsSum, Nat.cast_zero, add_zero]

end Scalar

open Scalar

instance : SignSymmetric ℝ where
  neg_neg := neg_neg
  neg_mul := neg_mul
  mul_neg := mul_neg
  sub_neg := sub_neg_eq_add
  sub_swap a b := .inl (neg_sub b a).symm
  vanishes_zero := vanishes_real_iff.mpr Nat.cast_zero
  vanishes_mul b none := by
    rw [vanishes_real_iff] at none ⊢
    rw [none, zero_mul]
  isSum_zero := isSum_real _
  isSum_add _ _ := isSum_real _
  add_eq_sub _ none := by
    rw [vanishes_real_iff] at none
    rw [none, add_zero, sub_zero]

/-- Over exact numbers zero is its own negative. -/
theorem Scalar.opposite_real_iff {a b : ℝ} : Opposite a b ↔ a = -b := by
  rw [Opposite, vanishes_real_iff]
  constructor
  · rintro (negative | ⟨rfl, rfl⟩)
    · exact negative
    · exact neg_zero.symm
  · exact .inl

end SpringLayout
