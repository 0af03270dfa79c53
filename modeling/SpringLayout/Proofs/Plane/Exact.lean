import Mathlib.Algebra.BigOperators.Group.Finset.Basic
import SpringLayout.Plane.Vec
import SpringLayout.Proofs.Scalar.Real

/-!
Vectors over exact numbers.

They form a commutative group under the sum of coordinates, so forces and positions can be added up
in any order, and multiplying by a scalar respects sums (`Vec.sum_mul`). A multiple is as long as
the vector times the size of the factor (`Vec.length_mul`). `Vec.PointsAlong` says that one vector
is a positive multiple of another.
-/

namespace SpringLayout

namespace Vec

/-! ### Sums -/

noncomputable instance : Zero (Vec ℝ) := ⟨zero⟩

@[simp] theorem zero_eq : (zero : Vec ℝ) = 0 := rfl
@[simp] theorem zero_x : (0 : Vec ℝ).x = 0 := Nat.cast_zero
@[simp] theorem zero_y : (0 : Vec ℝ).y = 0 := Nat.cast_zero

noncomputable instance : AddCommGroup (Vec ℝ) where
  add_assoc a b c := Vec.ext (add_assoc a.x b.x c.x) (add_assoc a.y b.y c.y)
  zero_add a := Vec.ext (by simp) (by simp)
  add_zero a := Vec.ext (by simp) (by simp)
  nsmul := nsmulRec
  sub_eq_add_neg a b := Vec.ext (sub_eq_add_neg a.x b.x) (sub_eq_add_neg a.y b.y)
  zsmul := zsmulRec
  neg_add_cancel a := Vec.ext (by simp) (by simp)
  add_comm a b := Vec.ext (add_comm a.x b.x) (add_comm a.y b.y)

theorem mul_mul (a : Vec ℝ) (s t : ℝ) : a * s * t = a * (s * t) :=
  Vec.ext (mul_assoc a.x s t) (mul_assoc a.y s t)

/-- Taking the multiple by `s`, which respects sums. -/
noncomputable def scale (s : ℝ) : Vec ℝ →+ Vec ℝ where
  toFun a := a * s
  map_zero' := Vec.ext (by simp) (by simp)
  map_add' a b := Vec.ext (add_mul a.x b.x s) (add_mul a.y b.y s)

theorem sum_mul {ι : Type} (t : Finset ι) (a : ι → Vec ℝ) (s : ℝ) :
    (∑ i ∈ t, a i) * s = ∑ i ∈ t, a i * s :=
  map_sum (scale s) a t

/-! ### Lengths -/

theorem length_real (a : Vec ℝ) : a.length = √(a.x * a.x + a.y * a.y) := rfl

theorem length_mul (a : Vec ℝ) (s : ℝ) : (a * s).length = a.length * |s| := by
  have square : (a * s).x * (a * s).x + (a * s).y * (a * s).y =
      (a.x * a.x + a.y * a.y) * s ^ 2 := by
    simp only [mul_x, mul_y]
    ring
  have nonneg : 0 ≤ a.x * a.x + a.y * a.y :=
    add_nonneg (mul_self_nonneg a.x) (mul_self_nonneg a.y)
  rw [length_real, square, Real.sqrt_mul nonneg, Real.sqrt_sq_eq_abs, length_real]

theorem length_neg (a : Vec ℝ) : (-a).length = a.length := by
  simp only [length_real, neg_x, neg_y, neg_mul_neg]

/-- Every direction has length one. -/
theorem length_ofAngle (angle : ℝ) : (ofAngle angle).length = 1 := by
  have one : (ofAngle angle).x * (ofAngle angle).x + (ofAngle angle).y * (ofAngle angle).y = 1 := by
    rw [← Real.cos_sq_add_sin_sq angle, sq, sq]
    rfl
  rw [length_real, one, Real.sqrt_one]

/-! ### Directions -/

/-- The vector is a positive multiple of another. -/
def PointsAlong (a b : Vec ℝ) : Prop := ∃ k : ℝ, 0 < k ∧ a = b * k

/-- Only one multiple of a vector that has a length is any given vector. -/
theorem eq_of_mul_eq {a : Vec ℝ} (long : 0 < a.length) {s t : ℝ} (same : a * s = a * t) :
    s = t := by
  by_contra apart
  have x : a.x = 0 := by
    have := congrArg Vec.x same
    exact (mul_eq_mul_left_iff.mp this).resolve_left apart
  have y : a.y = 0 := by
    have := congrArg Vec.y same
    exact (mul_eq_mul_left_iff.mp this).resolve_left apart
  rw [length_real, x, y] at long
  simp at long

theorem mul_pointsAlong_iff {a : Vec ℝ} (long : 0 < a.length) {s : ℝ} :
    (a * s).PointsAlong a ↔ 0 < s := by
  constructor
  · rintro ⟨k, pos, same⟩
    rwa [eq_of_mul_eq long same]
  · intro pos
    exact ⟨s, pos, rfl⟩

end Vec

end SpringLayout
