import SpringLayout.Proofs.Force.Balance
import SpringLayout.Proofs.Simulation.Gathering
import SpringLayout.Proofs.Simulation.Iteration

/-!
Momentum and centroid, over exact numbers.

The forces of a step are opposite in pairs, so they sum to zero wherever the vertices stand and
whatever the links are. A step therefore damps the momentum and does nothing else to it
(`Simulation.step_balanced`). Where the momentum is zero it stays zero and the centroid stays where
it is, step after step (`Simulation.Poised.stepped`); a graph at rest is such a state
(`Simulation.poised_atRest`).
-/

namespace SpringLayout

/-! ### Sums over the vertices -/

namespace Vec

/-- The mean of some places. -/
noncomputable def mean (places : List (Vec ℝ)) : Vec ℝ := places.sum * (1 / (places.length : ℝ))

theorem sum_toList {n : Nat} (a : Vector (Vec ℝ) n) : a.toArray.toList.sum = ∑ v, a.get v := by
  have listed : a.toArray.toList = List.ofFn a.get := by
    refine List.ext_getElem (by simp) fun v _ _ => ?_
    rw [List.getElem_ofFn]
    rfl
  rw [listed, List.sum_ofFn]

end Vec

/-- The forces on all vertices cancel. -/
theorem Push.sum_gather {n : Nat} (c : Config ℝ) (positions : Vector (Vec ℝ) n)
    (links : List (Link n)) : ∑ v, gather c positions links v = 0 := by
  simp only [← get_total_all]
  exact sum_total fun _ => first_ne_second_of_mem_all

namespace System

variable {n : Nat} (c : Config ℝ) (s : System ℝ n)

theorem sum_velocities_step :
    ∑ v, (s.step c).2.velocities.get v = (∑ v, s.velocities.get v) * c.damping := by
  simp only [get_velocities_step, Finset.sum_add_distrib, Push.sum_gather, add_zero, Vec.sum_mul]

theorem sum_positions_step :
    ∑ v, (s.step c).2.positions.get v =
      ∑ v, s.positions.get v + ∑ v, (s.step c).2.velocities.get v := by
  simp only [get_positions_step, Finset.sum_add_distrib]

end System

namespace Simulation

variable {s : Simulation ℝ}

/-- The sum of all velocities; every vertex has mass one. -/
noncomputable def momentum (s : Simulation ℝ) : Vec ℝ := s.velocities.toList.sum

/-- The mean of all positions. -/
noncomputable def centroid (s : Simulation ℝ) : Vec ℝ := Vec.mean s.positions.toList

/-! ### One step -/

/-- The step from `s` to `after` as the forces on the vertices, and what they do to all vertices
together. -/
structure BalancedStep (c : Config ℝ) (s after : Simulation ℝ) : Prop where
  velocity : ∀ (v : Fin s.positions.size) (old : Vec ℝ), s.velocities[v.val]? = some old →
    after.velocities[v.val]? = some (old * c.damping + s.gathered c v)
  forces : ∑ v, s.gathered c v = 0
  momentum : after.momentum = s.momentum * c.damping
  positions : after.positions.toList.sum = s.positions.toList.sum + s.momentum * c.damping

theorem step_balanced (c : Config ℝ) (valid : s.Valid) : BalancedStep c s (s.step c).2 := by
  have momentum : (s.step c).2.momentum = s.momentum * c.damping := by
    have system : s.momentum = ∑ v, (s.system valid).velocities.get v :=
      Vec.sum_toList (s.system valid).velocities
    rw [system, ← System.sum_velocities_step, ← Vec.sum_toList, step_of_valid c valid]
    rfl
  constructor
  · intro v old found
    obtain ⟨_, rfl⟩ := Array.getElem?_eq_some_iff.mp found
    rw [step_of_valid c valid]
    refine Array.getElem?_eq_some_iff.mpr ⟨by simp, ?_⟩
    exact System.get_velocities_step c (s.system valid) v
  · exact Push.sum_gather c _ _
  · exact momentum
  · have system : s.positions.toList.sum = ∑ v, (s.system valid).positions.get v :=
      Vec.sum_toList (s.system valid).positions
    rw [← momentum, system, step_of_valid c valid]
    dsimp only [Simulation.momentum]
    rw [Vec.sum_toList, Vec.sum_toList, System.sum_positions_step]

/-! ### Steps in a row -/

/-- The velocities cancel, and the centroid is `center`. A state at rest is poised; its velocities
are zero only until the first step, but they go on to cancel. -/
structure Poised (center : Vec ℝ) (s : Simulation ℝ) : Prop where
  momentum : s.momentum = 0
  centroid : s.centroid = center

theorem Poised.step {center : Vec ℝ} (poised : s.Poised center) (c : Config ℝ) (valid : s.Valid) :
    (s.step c).2.Poised center := by
  have step := step_balanced c valid
  have still : s.momentum * c.damping = 0 := by
    rw [poised.momentum]
    exact map_zero (Vec.scale c.damping)
  refine ⟨step.momentum.trans still, ?_⟩
  rw [← poised.centroid, Simulation.centroid, Vec.mean, step.positions, still, add_zero,
    Array.length_toList, positions_size_step]
  rfl

/-- However many steps are taken, the centroid stays. -/
theorem Poised.stepped {center : Vec ℝ} (poised : s.Poised center) (c : Config ℝ) (valid : s.Valid)
    (t : Nat) : (s.stepped c t).Poised center := by
  induction t with
  | zero => exact poised
  | succ t ih => exact ih.step c (valid.stepped c t)

/-! ### Starts -/

theorem poised_of_still (still : ∀ v ∈ s.velocities, v = 0) : s.Poised s.centroid where
  momentum := List.sum_eq_zero fun v mem => still v (Array.mem_toList_iff.mp mem)
  centroid := rfl

theorem poised_atRest (positions : Array (Vec ℝ)) (edges : List Edge) :
    (atRest positions edges).Poised (Vec.mean positions.toList) :=
  poised_of_still (s := atRest positions edges) fun _ mem => (Array.mem_replicate.mp mem).2

end Simulation

end SpringLayout
