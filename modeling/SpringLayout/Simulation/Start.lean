import SpringLayout.Graph.Description
import SpringLayout.Simulation.State

/-!
The state in which the simulation of a described graph starts.
-/

namespace SpringLayout.Simulation

variable {α : Type} [Scalar α]

/-- The graph at rest, its vertices where `initial` puts them. -/
def ofDescription (initial : InitialLayout) (d : Description α) :
    Except LayoutError (Simulation α) := do
  let edges ← d.layoutEdges
  return match initial with
  | .hints => atRest d.hints.toArray edges
  | .staggered => staggered d.vertexCount edges

end SpringLayout.Simulation
