import SpringLayout.Scalar

/-!
Laws of signs.

`SignSymmetric` asks of arithmetic only what it does to signs: a product takes the sign of either
factor along, a difference taken the other way round is the negative, and a sum never becomes a
negative zero unless it starts as one. Binary64 obeys these laws to the bit, and needs them with
care: the difference of equal numbers is the same zero either way round, and a zero is not its own
negative. `Scalar.Opposite` is what two differences are to each other for all that, and
`Scalar.Opposite.add_eq_sub` is why it does not show in a sum.
-/

namespace SpringLayout

namespace Scalar

section Definitions

variable {α : Type} [Scalar α]

/-- The scalar is a zero of either sign, or a NaN. -/
def Vanishes (a : α) : Prop := (a == ((0 : Nat) : α)) = true ∨ isNaN a = true

/-- The scalar can be a sum that began with zero: adding zero leaves it as it is, which only a
negative zero denies. -/
def IsSum (a : α) : Prop := a + ((0 : Nat) : α) = a

/-- Each scalar is the negative of the other, or they are the same and vanish. -/
def Opposite (a b : α) : Prop := a = -b ∨ a = b ∧ Vanishes b

end Definitions

end Scalar

open Scalar

/-- Scalars whose arithmetic treats both signs alike. -/
class SignSymmetric (α : Type) [Scalar α] : Prop where
  neg_neg : ∀ a : α, - -a = a
  neg_mul : ∀ a b : α, -a * b = -(a * b)
  mul_neg : ∀ a b : α, a * -b = -(a * b)
  sub_neg : ∀ a b : α, a - -b = a + b
  /-- Equal numbers have no difference either way round, and it has no sign. -/
  sub_swap : ∀ a b : α,
    a - b = -(b - a) ∨ a - b = ((0 : Nat) : α) ∧ b - a = ((0 : Nat) : α)
  vanishes_zero : Vanishes ((0 : Nat) : α)
  vanishes_mul : ∀ {a : α} (b : α), Vanishes a → Vanishes (a * b)
  isSum_zero : IsSum ((0 : Nat) : α)
  isSum_add : ∀ {a : α} (b : α), IsSum a → IsSum (a + b)
  add_eq_sub : ∀ {a b : α}, IsSum a → Vanishes b → a + b = a - b

namespace Scalar

variable {α : Type} [Scalar α] [SignSymmetric α] {a b : α}

theorem sub_eq_add_neg (a b : α) : a - b = a + -b := by
  rw [← SignSymmetric.sub_neg, SignSymmetric.neg_neg]

theorem IsSum.sub (sum : IsSum a) (b : α) : IsSum (a - b) := by
  rw [sub_eq_add_neg]
  exact SignSymmetric.isSum_add (-b) sum

namespace Opposite

theorem symm (opposite : Opposite a b) : Opposite b a := by
  rcases opposite with rfl | ⟨rfl, vanishes⟩
  · exact .inl (SignSymmetric.neg_neg b).symm
  · exact .inr ⟨rfl, vanishes⟩

theorem sub_swap (a b : α) : Opposite (a - b) (b - a) := by
  rcases SignSymmetric.sub_swap a b with negative | ⟨none, none'⟩
  · exact .inl negative
  · rw [none, none']
    exact .inr ⟨rfl, SignSymmetric.vanishes_zero⟩

theorem mul (opposite : Opposite a b) (s : α) : Opposite (a * s) (b * s) := by
  rcases opposite with rfl | ⟨rfl, vanishes⟩
  · exact .inl (SignSymmetric.neg_mul b s)
  · exact .inr ⟨rfl, SignSymmetric.vanishes_mul s vanishes⟩

/-- Opposite scalars have the same square. -/
theorem mul_self (opposite : Opposite a b) : a * a = b * b := by
  rcases opposite with rfl | ⟨rfl, -⟩
  · rw [SignSymmetric.neg_mul, SignSymmetric.mul_neg, SignSymmetric.neg_neg]
  · rfl

/-- Adding one of two opposite scalars to a sum is subtracting the other. -/
theorem add_eq_sub (opposite : Opposite a b) {sum : α} (isSum : IsSum sum) :
    sum + a = sum - b := by
  rcases opposite with rfl | ⟨rfl, vanishes⟩
  · exact (sub_eq_add_neg sum b).symm
  · exact SignSymmetric.add_eq_sub isSum vanishes

end Opposite

end Scalar

end SpringLayout
