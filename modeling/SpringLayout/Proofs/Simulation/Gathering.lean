import SpringLayout.Proofs.Force.Gather
import SpringLayout.Proofs.Simulation.Valid
import SpringLayout.Scalar.Binary64

/-!
A step seen from each vertex by itself.

The step scatters forces over all vertices and then moves them. `Simulation.GatheredStep` says what
becomes of a vertex in terms of the force that this vertex gathers, and what the outcome says in
terms of all gathered forces. Main statement: every step of a valid state is a gathered step
(`Simulation.step_gathers`).
-/

namespace SpringLayout

theorem Push.toList_total_all {α : Type} [PolarScalar α] {n : Nat} (c : Config α)
    (positions : Vector (Vec α) n) (links : List (Link n)) :
    (total (all c positions links)).toList =
      (List.finRange n).map (gather c positions links) := by
  refine List.ext_getElem (by simp) fun v inside _ => ?_
  have bound : v < n := by simpa using inside
  rw [Vector.getElem_toList, List.getElem_map, List.getElem_finRange]
  exact get_total_all c positions links ⟨v, bound⟩

namespace System

variable {α : Type} [PolarScalar α] {n : Nat}

theorem get_velocities_step (c : Config α) (s : System α n) (v : Fin n) :
    (s.step c).2.velocities.get v =
      s.velocities.get v * c.damping + Push.gather c s.positions s.links v := by
  rw [← Push.get_total_all]
  exact Vector.getElem_zipWith _

theorem get_positions_step (c : Config α) (s : System α n) (v : Fin n) :
    (s.step c).2.positions.get v = s.positions.get v + (s.step c).2.velocities.get v :=
  Vector.getElem_zipWith _

theorem settled_step_iff (c : Config α) (s : System α n) :
    (s.step c).1.settled = true ↔
      ∀ v, (Push.gather c s.positions s.links v).lengthSq ≤ c.minForceSq := by
  simp only [step, StepOutcome.ofForces, Push.toList_total_all, List.map_map, List.all_map,
    List.all_eq_true, Function.comp_apply, decide_eq_true_eq, List.mem_finRange, true_implies]

theorem peakForceSq_step (c : Config α) (s : System α n) :
    (s.step c).1.peakForceSq =
      (List.finRange n).foldl
        (fun peak v => Scalar.greater peak (Push.gather c s.positions s.links v).lengthSq)
        ((0 : Nat) : α) := by
  simp only [step, StepOutcome.ofForces, Push.toList_total_all, List.foldl_map]

theorem guardedPairs_step (c : Config α) (s : System α n) :
    (s.step c).1.guardedPairs =
      s.links.countP (fun l => l.head ≠ l.tail ∧ (Push.spring c s.positions l).guarded = true) +
        (Finset.univ.filter fun p : Fin n × Fin n =>
          p.1 < p.2 ∧ (Push.repulsion c s.positions p.1 p.2).guarded = true).card := by
  simp only [step, StepOutcome.ofForces, Push.countP_guarded_all]

end System

namespace Simulation

variable {α : Type} [PolarScalar α]

/-- The force that a vertex of the state gathers. -/
def gathered (c : Config α) (s : Simulation α) (v : Fin s.positions.size) : Vec α :=
  Push.gather c s.positions.toVector s.links v

/-- The step from `s` to `after`, told vertex by vertex. All forces are those at the positions of
`s`. -/
structure GatheredStep (c : Config α) (s : Simulation α) (outcome : StepOutcome α)
    (after : Simulation α) : Prop where
  edges : after.edges = s.edges
  positions_size : after.positions.size = s.positions.size
  velocities_size : after.velocities.size = s.velocities.size
  /-- The old velocity is damped, and the gathered force is added. -/
  velocity : ∀ (v : Fin s.positions.size) (old : Vec α), s.velocities[v.val]? = some old →
    after.velocities[v.val]? = some (old * c.damping + s.gathered c v)
  /-- The vertex moves by its new velocity. -/
  position : ∀ (v : Fin s.positions.size) (new : Vec α), after.velocities[v.val]? = some new →
    after.positions[v.val]? = some (s.positions[v] + new)
  settled : outcome.settled = true ↔ ∀ v, (s.gathered c v).lengthSq ≤ c.minForceSq
  peak : outcome.peakForceSq =
    (List.finRange s.positions.size).foldl
      (fun peak v => Scalar.greater peak (s.gathered c v).lengthSq) ((0 : Nat) : α)
  /-- Guarded springs of links between different vertices, and guarded pairs of vertices. -/
  guarded : outcome.guardedPairs =
    s.links.countP
        (fun l => l.head ≠ l.tail ∧ (Push.spring c s.positions.toVector l).guarded = true) +
      (Finset.univ.filter fun p : Fin s.positions.size × Fin s.positions.size =>
        p.1 < p.2 ∧ (Push.repulsion c s.positions.toVector p.1 p.2).guarded = true).card

/-- Every valid state takes a step, its edges are all links, and the step gives each vertex exactly
the force that it gathers by itself. -/
theorem step_gathers (c : Config α) {s : Simulation α} (valid : s.Valid) :
    s.links.map Link.edge = s.edges ∧
      ∃ outcome after, s.step c = (.ok outcome, after) ∧ GatheredStep c s outcome after := by
  refine ⟨map_edge_links valid, _, _, step_of_valid c valid, ?_⟩
  exact
    { edges := rfl
      positions_size := Vector.size_toArray _
      velocities_size := (Vector.size_toArray _).trans valid.velocities_size.symm
      velocity := by
        intro v old found
        obtain ⟨_, rfl⟩ := Array.getElem?_eq_some_iff.mp found
        refine Array.getElem?_eq_some_iff.mpr ⟨by simp, ?_⟩
        exact System.get_velocities_step c (s.system valid) v
      position := by
        intro v new found
        obtain ⟨_, rfl⟩ := Array.getElem?_eq_some_iff.mp found
        refine Array.getElem?_eq_some_iff.mpr ⟨by simp, ?_⟩
        exact System.get_positions_step c (s.system valid) v
      settled := System.settled_step_iff c (s.system valid)
      peak := System.peakForceSq_step c (s.system valid)
      guarded := System.guardedPairs_step c (s.system valid) }

/-- Two coincident vertices, parallel edges both ways round and a loop. -/
def tangle : Simulation Float :=
  atRest #[⟨0, 0⟩, ⟨0, 0⟩, ⟨3, 4⟩] [⟨⟨0⟩, ⟨1⟩⟩, ⟨⟨2⟩, ⟨2⟩⟩, ⟨⟨1⟩, ⟨0⟩⟩, ⟨⟨2⟩, ⟨0⟩⟩]

theorem step_gathers_tangle :
    tangle.Valid ∧ tangle.links.map Link.edge = tangle.edges ∧
      ∃ outcome after, tangle.step Config.standard = (.ok outcome, after) ∧
        GatheredStep Config.standard tangle outcome after :=
  ⟨by decide, step_gathers Config.standard (by decide)⟩

end Simulation

end SpringLayout
