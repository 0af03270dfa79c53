import SpringLayout.Plane.Vec

/-!
The guarded displacement between two vertices.

The force law divides by distances, so no distance is reported below the configured least one, nor
below `2⁻⁵²` whatever is configured. Two vertices closer than that keep their direction and are
treated as if they stood that far apart. Vertices that coincide have no direction; the pair
gets one of its own, at as many golden angles as the pair's number, and opposite ways round
for the two orders of the pair.
-/

namespace SpringLayout

/-- The number of an unordered pair of vertices, counting pairs by their greater vertex and
then by their smaller one. -/
def pairNumber (i j : UInt64) : UInt64 :=
  if i < j then j * (j - 1) / 2 + i else i * (i - 1) / 2 + j

/-- The displacement from one vertex to another, guarded against vanishing. -/
structure Separation (α : Type) where
  delta : Vec α
  /-- The length of `delta`. -/
  distance : α
  /-- The vertices were closer than the least distance. -/
  guarded : Bool
deriving Repr

namespace Separation

variable {α : Type} [PolarScalar α]

/-- The direction from vertex `j` to vertex `i` where the two coincide. -/
def tieBreak (i j : Nat) : Vec α :=
  let number := (pairNumber i.toUInt64 j.toUInt64).toNat
  let direction := Vec.ofAngle (Scalar.goldenAngle * (number : α))
  if i < j then direction else -direction

/-- The least distance that is reported when `minDistance` is asked for. -/
def least (minDistance : α) : α := Scalar.greater minDistance Scalar.epsilon

/-- The separation from vertex `j` at `q` to vertex `i` at `p`. -/
def between (minDistance : α) (i j : Nat) (p q : Vec α) : Separation α :=
  let delta := p - q
  let distance := delta.length
  if least minDistance ≤ distance then
    { delta := delta, distance := distance, guarded := false }
  else
    let direction :=
      if Scalar.epsilon < distance then delta * (((1 : Nat) : α) / distance) else tieBreak i j
    { delta := direction * least minDistance, distance := least minDistance, guarded := true }

end Separation

end SpringLayout
