import SpringLayout.Error
import SpringLayout.Simulation.System

/-!
The state of a simulation as callers keep it: arrays of positions and velocities and a list of
edges, which need not fit together. A step first reads the state as a `System`; where that fails, it
is refused and the state stays as it is.
-/

namespace SpringLayout

/-- Positions and velocities of the vertices, and the edges between them. -/
structure Simulation (α : Type) where
  positions : Array (Vec α)
  velocities : Array (Vec α)
  edges : List Edge
deriving Repr

namespace Simulation

section Setup

variable {α : Type} [Scalar α]

/-- The vertices at the given places, none of them moving. -/
def atRest (positions : Array (Vec α)) (edges : List Edge) : Simulation α where
  positions := positions
  velocities := Array.replicate positions.size Vec.zero
  edges := edges

/-- The place of vertex `i` when places are not given. -/
def staggeredPlace (i : Nat) : Vec α where
  x := ((100 : Nat) : α) + (i : α) * (i : α)
  y := ((100 : Nat) : α) * (i : α)

/-- `count` vertices along the staggered curve, none of them moving. -/
def staggered (count : Nat) (edges : List Edge) : Simulation α :=
  atRest ((List.range count).map staggeredPlace).toArray edges

end Setup

section Reading

variable {α : Type}

/-- How many vertices there are. -/
def vertexCount (s : Simulation α) : Nat := s.positions.size

/-- There are no vertices. -/
def isEmpty (s : Simulation α) : Bool := s.positions.isEmpty

/-- The first edge with an end past the last of `count` vertices, and its place. -/
def firstStray? (count : Nat) (edges : List Edge) : Option (Edge × Nat) :=
  edges.zipIdx.find? fun (e, _) => decide (¬ e.Within count)

/-- The state as a system. There must be one velocity for each position, and then no edge may
have an end past the last vertex. -/
def system? (s : Simulation α) : Except LayoutError (System α s.positions.size) :=
  if h : s.velocities.size = s.positions.size then
    match firstStray? s.positions.size s.edges with
    | some (e, k) => .error (.invalidEdge ⟨k⟩ e s.positions.size)
    | none => .ok
        { positions := ⟨s.positions, rfl⟩
          velocities := ⟨s.velocities, h⟩
          links := s.edges.filterMap (Edge.link? s.positions.size) }
  else .error (.lengthMismatch s.positions.size s.velocities.size)

/-- Whether the parts of the state fit together. -/
def validate (s : Simulation α) : Except LayoutError Unit := s.system?.map fun _ => ()

end Reading

section Motion

variable {α : Type} [PolarScalar α]

/-- One step. A refused step changes nothing. -/
def step (c : Config α) (s : Simulation α) : Attempt (Simulation α) (StepOutcome α) :=
  match s.system? with
  | .error e => (.error e, s)
  | .ok system =>
    let (outcome, after) := system.step c
    (.ok outcome,
      { s with positions := after.positions.toArray, velocities := after.velocities.toArray })

end Motion

end Simulation

end SpringLayout
