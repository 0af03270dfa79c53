import SpringLayout.Force.Config
import SpringLayout.Force.Separation
import SpringLayout.Graph.Edge

/-!
The forces of one moment, each acting on two vertices at once and in opposite directions.

Every edge is a spring: it pulls its ends together when longer than the rest length and pushes
them apart when shorter, in proportion. Parallel edges count each, and an edge from a vertex to
itself exerts nothing. Every two vertices, joined or not, repel each other with the inverse cube of
their distance. Springs act in the order of the edges, then the repulsions in the order of the
pairs; sums of forces are taken in that order.
-/

namespace SpringLayout

/-- The pairs of `n` vertices, each with its smaller vertex first, in ascending order. -/
def pairsBelow (n : Nat) : List (Fin n × Fin n) :=
  (List.finRange n).flatMap fun i =>
    ((List.finRange n).filter fun j => decide (i < j)).map fun j => (i, j)

/-- Two opposite forces: `force` on the vertex `first`, its negative on `second`. -/
structure Push (α : Type) (n : Nat) where
  first : Fin n
  second : Fin n
  force : Vec α
  /-- The distance behind the force was guarded. -/
  guarded : Bool
deriving Repr

namespace Push

variable {α : Type} [PolarScalar α] {n : Nat}

/-- The push of an edge on its head, and against its tail. -/
def spring (c : Config α) (positions : Vector (Vec α) n) (l : Link n) : Push α n :=
  let s := Separation.between c.minDistance l.tail l.head positions[l.tail] positions[l.head]
  let strength := c.springStiffness * (s.distance - c.restLength)
  { first := l.head
    second := l.tail
    force := s.delta * (strength / s.distance)
    guarded := s.guarded }

/-- The push of vertex `j` on vertex `i`, and against `j`. -/
def repulsion (c : Config α) (positions : Vector (Vec α) n) (i j : Fin n) : Push α n :=
  let s := Separation.between c.minDistance i j positions[i] positions[j]
  let d := s.distance
  { first := i
    second := j
    force := s.delta * (c.repulsion / (d * d * d * d))
    guarded := s.guarded }

@[simp] theorem spring_first (c : Config α) (positions : Vector (Vec α) n) (l : Link n) :
    (spring c positions l).first = l.head := rfl

@[simp] theorem spring_second (c : Config α) (positions : Vector (Vec α) n) (l : Link n) :
    (spring c positions l).second = l.tail := rfl

@[simp] theorem repulsion_first (c : Config α) (positions : Vector (Vec α) n) (i j : Fin n) :
    (repulsion c positions i j).first = i := rfl

@[simp] theorem repulsion_second (c : Config α) (positions : Vector (Vec α) n) (i j : Fin n) :
    (repulsion c positions i j).second = j := rfl

/-- All pushes among the vertices, in the order in which they are summed. -/
def all (c : Config α) (positions : Vector (Vec α) n) (links : List (Link n)) :
    List (Push α n) :=
  (links.filter fun l => decide (l.head ≠ l.tail)).map (spring c positions) ++
    (pairsBelow n).map fun (i, j) => repulsion c positions i j

/-- One push added to the forces found so far. -/
def deposit (forces : Vector (Vec α) n) (p : Push α n) : Vector (Vec α) n :=
  let forces := forces.set p.first (forces[p.first] + p.force)
  forces.set p.second (forces[p.second] - p.force)

/-- The sum of the pushes at every vertex. -/
def total (pushes : List (Push α n)) : Vector (Vec α) n :=
  pushes.foldl deposit (Vector.replicate n Vec.zero)

end Push

end SpringLayout
