import SpringLayout.Proofs.Force.Gather
import SpringLayout.Proofs.Plane.Exact

/-!
Forces in balance, over exact numbers.

A push exerts a force on one vertex and the opposite force on another (`Push.on`). The force that a
vertex ends up with is the sum of what the pushes exert on it (`Push.get_total`), whatever their
order, and as each push exerts nothing on the vertices together, the forces of any pushes sum to
zero (`Push.sum_total`).
-/

namespace SpringLayout

namespace Push

variable {n : Nat}

/-- The force of a push on vertex `v`. -/
noncomputable def on (p : Push ℝ n) (v : Fin n) : Vec ℝ :=
  if p.first = v then p.force else if p.second = v then -p.force else 0

theorem feel_eq_add_on (v : Fin n) (force : Vec ℝ) (p : Push ℝ n) :
    feel v force p = force + p.on v := by
  unfold feel on
  split
  · rfl
  · split
    · exact sub_eq_add_neg force p.force
    · exact (add_zero force).symm

theorem foldl_feel (v : Fin n) (force : Vec ℝ) (pushes : List (Push ℝ n)) :
    pushes.foldl (feel v) force = force + (pushes.map fun p => p.on v).sum := by
  induction pushes generalizing force with
  | nil => exact (add_zero force).symm
  | cons p rest ih =>
      rw [List.foldl_cons, ih, feel_eq_add_on, List.map_cons, List.sum_cons, add_assoc]

/-- The force on a vertex is the sum of the forces of the pushes on it. -/
theorem get_total {pushes : List (Push ℝ n)} (distinct : ∀ p ∈ pushes, p.first ≠ p.second)
    (v : Fin n) : (total pushes).get v = (pushes.map fun p => p.on v).sum := by
  have none : (Vector.replicate n (Vec.zero : Vec ℝ)).get v = 0 := Vector.getElem_replicate _
  rw [total, get_foldl_deposit _ _ distinct, none, foldl_feel, zero_add]

/-- A push exerts nothing on all vertices together. -/
theorem sum_on {p : Push ℝ n} (distinct : p.first ≠ p.second) : ∑ v, p.on v = 0 := by
  have ends : ∀ v, p.on v =
      (if p.first = v then p.force else 0) + if p.second = v then -p.force else 0 := by
    intro v
    unfold on
    by_cases first : p.first = v
    · have second : p.second ≠ v := fun h => distinct (first.trans h.symm)
      rw [if_pos first, if_pos first, if_neg second, add_zero]
    · rw [if_neg first, if_neg first, zero_add]
  simp only [ends, Finset.sum_add_distrib, Finset.sum_ite_eq, Finset.mem_univ, if_true,
    add_neg_cancel]

/-- All forces together are in balance. -/
theorem sum_total {pushes : List (Push ℝ n)} (distinct : ∀ p ∈ pushes, p.first ≠ p.second) :
    ∑ v, (total pushes).get v = 0 := by
  simp only [get_total distinct]
  induction pushes with
  | nil => exact Finset.sum_const_zero
  | cons p rest ih =>
      simp only [List.map_cons, List.sum_cons, Finset.sum_add_distrib]
      rw [sum_on (distinct p List.mem_cons_self), zero_add]
      exact ih fun q mem => distinct q (List.mem_cons_of_mem _ mem)

end Push

end SpringLayout
