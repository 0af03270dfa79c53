import SpringLayout.Scalar

/-!
Laws of comparing scalars.

`OrderedScalar` asks of the comparisons what holds in binary64 and over exact numbers alike: numbers
are compared as a linear order compares them, and a NaN never is, be it with itself. Of arithmetic
it asks only where a NaN cannot come from: differences of finite numbers and sums of squares.
-/

namespace SpringLayout

/-- Scalars whose comparisons are those of a linear order, as far as no NaN is compared. -/
class OrderedScalar (α : Type) [Scalar α] : Prop where
  le_trans : ∀ {a b c : α}, a ≤ b → b ≤ c → a ≤ c
  le_of_lt : ∀ {a b : α}, a < b → a ≤ b
  le_of_not_lt : ∀ {a b : α}, Scalar.isNaN a = false → Scalar.isNaN b = false → ¬ b < a → a ≤ b
  /-- Only numbers are equal to anything. -/
  isNaN_of_beq : ∀ {a b : α}, (a == b) = true → Scalar.isNaN a = false ∧ Scalar.isNaN b = false
  isNaN_sub : ∀ {a b : α}, Scalar.isFinite a = true → Scalar.isFinite b = true →
    Scalar.isNaN (a - b) = false
  isNaN_sq_add_sq : ∀ {a b : α}, Scalar.isNaN a = false → Scalar.isNaN b = false →
    Scalar.isNaN (a * a + b * b) = false

namespace OrderedScalar

variable {α : Type} [Scalar α] [OrderedScalar α]

theorem le_refl {a : α} (number : Scalar.isNaN a = false) : a ≤ a := by
  by_cases less : a < a
  · exact le_of_lt less
  · exact le_of_not_lt number number less

end OrderedScalar

end SpringLayout
