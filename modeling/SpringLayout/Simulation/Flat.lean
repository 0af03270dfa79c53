import SpringLayout.Interleaved
import SpringLayout.Simulation.State

/-!
One step on flat arrays of coordinates, for callers that keep the state of a simulation
themselves.
-/

namespace SpringLayout

/-- Positions and velocities as flat arrays `x₀, y₀, x₁, y₁, …`. -/
structure FlatState (α : Type) where
  positions : Array α
  velocities : Array α
deriving Repr

namespace FlatState

variable {α : Type}

/-- The flat arrays and the flat list of edges as the state of a simulation. -/
def simulation? (s : FlatState α) (edges : List Nat) : Except LayoutError (Simulation α) := do
  Interleaved.checkEven .positions s.positions.toList
  Interleaved.checkEven .velocities s.velocities.toList
  return {
    edges := ← Interleaved.edges edges
    positions := Interleaved.toPoints s.positions
    velocities := Interleaved.toPoints s.velocities }

/-- The state of a simulation with its coordinates written out flat. -/
def ofSimulation (s : Simulation α) : FlatState α where
  positions := Interleaved.ofPoints s.positions
  velocities := Interleaved.ofPoints s.velocities

/-- One step. A refused step changes nothing. -/
def step [PolarScalar α] (c : Config α) (edges : List Nat) (s : FlatState α) :
    Attempt (FlatState α) (StepOutcome α) :=
  match s.simulation? edges with
  | .error e => (.error e, s)
  | .ok simulation =>
    match simulation.step c with
    | (.error e, _) => (.error e, s)
    | (.ok outcome, after) => (.ok outcome, ofSimulation after)

end FlatState

end SpringLayout
