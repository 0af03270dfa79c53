import SpringLayout.Force.Push

/-!
Vertices in motion, and one step of their motion.

A step finds the forces at the present positions, damps each velocity and adds the force to it,
and then moves each vertex by its new velocity. It is settled when no vertex feels more than the
least force; the forces decide this, not the velocities, and one that is a NaN never counts as
little.
-/

namespace SpringLayout

/-- The motion of `n` vertices and the links between them. -/
structure System (α : Type) (n : Nat) where
  positions : Vector (Vec α) n
  velocities : Vector (Vec α) n
  links : List (Link n)
deriving Repr

/-- What is known of a step once it is taken. -/
structure StepOutcome (α : Type) where
  /-- No vertex felt more than the least force. -/
  settled : Bool
  /-- The square of the greatest force on a vertex. -/
  peakForceSq : α
  /-- How many pushes had their distance guarded. -/
  guardedPairs : Nat
deriving Repr

namespace System

variable {α : Type} [PolarScalar α] {n : Nat}

/-- The system after a step under the given forces. -/
def moveBy (c : Config α) (forces : Vector (Vec α) n) (s : System α n) : System α n :=
  let velocities := Vector.zipWith (fun (v f : Vec α) => v * c.damping + f) s.velocities forces
  { s with
    velocities := velocities
    positions := Vector.zipWith (fun (p v : Vec α) => p + v) s.positions velocities }

end System

/-- What the pushes of a moment and the forces they add up to say about the step. -/
def StepOutcome.ofForces {α : Type} [PolarScalar α] {n : Nat} (c : Config α)
    (pushes : List (Push α n)) (forces : Vector (Vec α) n) : StepOutcome α :=
  let squares := forces.toList.map Vec.lengthSq
  { settled := squares.all fun f => decide (f ≤ c.minForceSq)
    peakForceSq := squares.foldl Scalar.greater ((0 : Nat) : α)
    guardedPairs := pushes.countP fun p => p.guarded }

/-- One step of the motion. -/
def System.step {α : Type} [PolarScalar α] {n : Nat} (c : Config α) (s : System α n) :
    StepOutcome α × System α n :=
  let pushes := Push.all c s.positions s.links
  let forces := Push.total pushes
  (StepOutcome.ofForces c pushes forces, s.moveBy c forces)

end SpringLayout
