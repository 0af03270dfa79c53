/-!
The arithmetic that a layout is computed in.

`Scalar` names the operations behind bounds, viewports and hit tests; `PolarScalar` adds what
distances and directions need. Both hold operations only. No definition of the library relies on
a law of addition or of order, so the same definitions run in binary64, where hardly any law
holds, and can be read over exact numbers, where all of them do.

`lesser` and `greater` choose between two scalars and pass over one that differs from itself, so
that a NaN never becomes a bound while a number is at hand.
-/

namespace SpringLayout

/-- Numbers that can be added, compared and fitted to a rectangle. -/
class Scalar (α : Type) extends
    NatCast α, Add α, Sub α, Mul α, Div α, Neg α, LE α, LT α, BEq α where
  /-- Whether `a ≤ b` is decided by computing. -/
  decidableLe : ∀ a b : α, Decidable (a ≤ b)
  /-- Whether `a < b` is decided by computing. -/
  decidableLt : ∀ a b : α, Decidable (a < b)
  /-- The scalar is a number, neither infinite nor a NaN. -/
  isFinite : α → Bool

/-- Scalars with lengths and directions. -/
class PolarScalar (α : Type) extends Scalar α where
  /-- The square root. -/
  sqrt : α → α
  /-- The cosine of an angle in radians. -/
  cos : α → α
  /-- The sine of an angle in radians. -/
  sin : α → α

namespace Scalar

variable {α : Type} [Scalar α]

instance (a b : α) : Decidable (a ≤ b) := decidableLe a b

instance (a b : α) : Decidable (a < b) := decidableLt a b

/-- The scalar differs from itself, as a NaN does. -/
def isNaN (a : α) : Bool := !(a == a)

/-- The smaller of two scalars, a NaN giving way to the other; the first of two equals. -/
def lesser (a b : α) : α :=
  if isNaN a then b else if b < a then b else a

/-- The larger of two scalars, a NaN giving way to the other; the first of two equals. -/
def greater (a b : α) : α :=
  if isNaN a then b else if a < b then b else a

/-- Half way between two scalars. -/
def midpoint (a b : α) : α :=
  (a + b) / ((2 : Nat) : α)

/-- The gap between 1 and the next binary64 number, `2⁻⁵²`. -/
def epsilon : α :=
  ((1 : Nat) : α) / ((4503599627370496 : Nat) : α)

/-- The golden angle `π (3 - √5)` in radians, to the last place of binary64. -/
def goldenAngle : α :=
  ((2399963229728653 : Nat) : α) / ((1000000000000000 : Nat) : α)

end Scalar

end SpringLayout
