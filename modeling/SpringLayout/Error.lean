import SpringLayout.Graph.Edge

/-!
Why an operation is refused, and how the refusal is worded.
-/

namespace SpringLayout

/-- A flat array that holds pairs of values. -/
inductive FlatArray where
  | positions
  | velocities
  | edges
deriving DecidableEq, Repr

/-- The array as messages name it. -/
def FlatArray.label : FlatArray → String
  | .positions => "positions"
  | .velocities => "velocities"
  | .edges => "edges"

/-- The cause for which an operation is refused. -/
inductive LayoutError where
  /-- The edge at place `id` has an end past the last of `vertexCount` vertices. -/
  | invalidEdge (id : EdgeId) (edge : Edge) (vertexCount : Nat)
  /-- There is not one velocity for each position. -/
  | lengthMismatch (positions velocities : Nat)
  /-- A flat array of pairs leaves one value over. -/
  | oddLength (array : FlatArray) (length : Nat)
  /-- The vertex is past the last of `vertexCount` vertices. -/
  | invalidVertex (vertex : VertexId) (vertexCount : Nat)
  /-- A run is asked for, and no graph is loaded. -/
  | noGraph
deriving DecidableEq, Repr

/-- The refusal in words. -/
def LayoutError.message : LayoutError → String
  | .invalidEdge id edge vertexCount =>
      "invalid edge reference: " ++ id.label ++ " (" ++ edge.head.label ++ " - " ++
        edge.tail.label ++ ") with " ++ toString vertexCount ++ " vertices"
  | .lengthMismatch positions velocities =>
      "position/velocity length mismatch: " ++ toString positions ++ " positions, " ++
        toString velocities ++ " velocities"
  | .oddLength array length =>
      array.label ++ " has odd length " ++ toString length ++ "; expected interleaved pairs"
  | .invalidVertex vertex vertexCount =>
      "invalid vertex reference: " ++ vertex.label ++ " with " ++ toString vertexCount ++
        " vertices"
  | .noGraph => "no graph loaded"

/-- What an operation on a state of type `σ` leaves behind: its answer, or why it was refused,
and the state it ends in. A refusal does not hide the state, so it can be said what a refused
operation has changed. -/
abbrev Attempt (σ β : Type) := Except LayoutError β × σ

end SpringLayout
