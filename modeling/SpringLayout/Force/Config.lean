import SpringLayout.Plane.Viewport

/-!
What can be chosen about a layout: the force law, the pace of a run, the start and the display.
-/

namespace SpringLayout

/-- Where the vertices of a freshly loaded graph stand. -/
inductive InitialLayout where
  /-- At the places that the description hints at. -/
  | hints
  /-- On a steepening curve, whatever the hints are. -/
  | staggered
deriving DecidableEq, Repr

/-- The parameters of a layout. Any values are allowed. -/
structure Config (α : Type) where
  /-- The length at which an edge exerts no force. -/
  restLength : α
  /-- The force of an edge for a unit of stretch. -/
  springStiffness : α
  /-- The force between two vertices at distance one. -/
  repulsion : α
  /-- The part of a velocity that is left after a step. -/
  damping : α
  /-- The force up to which a vertex counts as being at rest. -/
  minForce : α
  /-- The distance below which two vertices are treated as if they were that far apart. -/
  minDistance : α
  /-- The most steps between two frames; none counts as one. -/
  stepsPerFrame : UInt32
  /-- The most steps of a run that is finished at one go. -/
  maxIterations : UInt32
  initialLayout : InitialLayout
  viewport : Viewport α
deriving Repr

namespace Config

variable {α : Type} [Scalar α]

/-- The parameters that are used where none are given. -/
def standard : Config α where
  restLength := ((200 : Nat) : α)
  springStiffness := ((1 : Nat) : α) / ((10 : Nat) : α)
  repulsion := ((100000 : Nat) : α)
  damping := ((1 : Nat) : α) / ((2 : Nat) : α)
  minForce := ((1 : Nat) : α)
  minDistance := ((1 : Nat) : α)
  stepsPerFrame := 5
  maxIterations := 10000
  initialLayout := .hints
  viewport := Viewport.standard

/-- The square of the force up to which a vertex counts as being at rest. -/
def minForceSq (c : Config α) : α := c.minForce * c.minForce

end Config

end SpringLayout
