import SpringLayout.Proofs.Graph.Checks
import SpringLayout.Proofs.Simulation.Refusal

/-!
States with one velocity for each position.

`Simulation.ofVectors` makes a state of as many velocities as positions, which leaves the edges as
all that can be wrong with it. `Simulation.validate_eq` says in one equation what the check of any
state comes to, and `Simulation.step_ofVectors` what a step of two vectors is.
-/

namespace SpringLayout.Simulation

section Checking

variable {α : Type}

/-- The parts of a state are checked one after the other: first the lengths, then the edges. -/
theorem validate_eq (s : Simulation α) :
    s.validate =
      if s.velocities.size = s.positions.size then
        checked s.positions.size (firstStray? s.positions.size s.edges) ()
      else .error (.lengthMismatch s.positions.size s.velocities.size) := by
  unfold validate system?
  by_cases sizes : s.velocities.size = s.positions.size
  · rw [dif_pos sizes, if_pos sizes]
    cases firstStray? s.positions.size s.edges with
    | none => rfl
    | some stray => rfl
  · rw [dif_neg sizes, if_neg sizes]
    rfl

/-- The check looks at the lengths and at the edges, and at nothing else. -/
theorem validate_congr {s t : Simulation α} (positions : s.positions.size = t.positions.size)
    (velocities : s.velocities.size = t.velocities.size) (edges : s.edges = t.edges) :
    s.validate = t.validate := by
  rw [validate_eq, validate_eq, positions, velocities, edges]

variable {n : Nat}

/-- The state of the given positions and velocities. -/
def ofVectors (positions velocities : Vector (Vec α) n) (edges : List Edge) : Simulation α where
  positions := positions.toArray
  velocities := velocities.toArray
  edges := edges

theorem validate_ofVectors (positions velocities : Vector (Vec α) n) (edges : List Edge) :
    (ofVectors positions velocities edges).validate =
      checked n (firstStray? n edges) () := by
  rw [validate_eq, ofVectors, positions.size_toArray, velocities.size_toArray, if_pos rfl]

/-- A valid state is one of two vectors. -/
theorem Valid.eq_ofVectors {s : Simulation α} (valid : s.Valid) :
    s = ofVectors s.positions.toVector ⟨s.velocities, valid.velocities_size⟩ s.edges := rfl

end Checking

section Motion

variable {α : Type} [PolarScalar α] {n : Nat} {edges : List Edge}

/-- A step of two vectors is that of their system. -/
theorem step_ofVectors (c : Config α) (positions velocities : Vector (Vec α) n)
    (within : ∀ e ∈ edges, e.Within n) :
    (ofVectors positions velocities edges).step c =
      let stepped := System.step c ⟨positions, velocities, edges.filterMap (Edge.link? n)⟩
      (.ok stepped.1, ofVectors stepped.2.positions stepped.2.velocities edges) := by
  obtain ⟨positions, rfl⟩ := positions
  have valid : (ofVectors ⟨positions, rfl⟩ velocities edges).Valid :=
    ⟨velocities.size_toArray, within⟩
  exact step_of_valid c valid

end Motion

end SpringLayout.Simulation
