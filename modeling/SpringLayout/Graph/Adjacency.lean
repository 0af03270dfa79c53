import SpringLayout.Error
import SpringLayout.Graph.Multigraph

/-!
Who touches what in a graph.

An `Adjacency` is a multigraph with a node for each vertex and an edge for each edge of an edge
list, entered in order. What is met at a node, in whatever order and however often, is answered
ascending and each once.
-/

namespace SpringLayout

/-- The members in ascending order of their indices, and equal ones once. -/
def ascending {ι : Type} [DecidableEq ι] (index : ι → Nat) (ids : List ι) : List ι :=
  (ids.mergeSort fun a b => index a ≤ index b).eraseReps

/-- A multigraph in which the vertices and edges of a graph are entered. -/
structure Adjacency (γ : Type) where
  graph : γ
deriving Repr

namespace Adjacency

variable {γ : Type} [Multigraph γ]

/-- The graph without vertices. -/
def empty : Adjacency γ := ⟨Multigraph.empty⟩

/-- The multigraph of `count` vertices and no edges. -/
def nodes (count : Nat) : γ :=
  (List.range count).foldl (fun g i => Multigraph.addNode ⟨i⟩ g) Multigraph.empty

/-- The multigraph with one more edge, at place `k` of its edge list. -/
def enter (e : Edge) (k : Nat) (g : γ) : γ :=
  Multigraph.addEdge e.head.index e.tail.index ⟨k⟩ g

/-- The graph of `count` vertices and the given edges, unless one has an end past the last
vertex. -/
def build (count : Nat) (edges : List Edge) : Except LayoutError (Adjacency γ) :=
  Adjacency.mk <$> edges.zipIdx.foldlM
    (fun g (e, k) =>
      if e.Within count then .ok (enter e k g) else .error (.invalidEdge ⟨k⟩ e count))
    (nodes count)

/-- How many vertices there are. -/
def vertexCount (a : Adjacency γ) : Nat := Multigraph.nodeCount a.graph

/-- How many edges there are. -/
def edgeCount (a : Adjacency γ) : Nat := Multigraph.edgeCount a.graph

/-- The edge at a place in the edge list. -/
def edge? (a : Adjacency γ) (id : EdgeId) : Option Edge := do
  let (first, second) ← Multigraph.ends? id.index a.graph
  return ⟨← Multigraph.node? first a.graph, ← Multigraph.node? second a.graph⟩

/-- The number of the node of a vertex. -/
def nodeOf (a : Adjacency γ) (v : VertexId) : Except LayoutError Nat :=
  if v.Within a.vertexCount then .ok v.index else .error (.invalidVertex v a.vertexCount)

/-- The edges at a vertex, ascending and each once. -/
def incident (a : Adjacency γ) (v : VertexId) : Except LayoutError (List EdgeId) :=
  (a.nodeOf v).map fun i => ascending EdgeId.index (Multigraph.edgesAt i a.graph)

/-- The vertices joined to a vertex by some edge, ascending and each once. -/
def neighbors (a : Adjacency γ) (v : VertexId) : Except LayoutError (List VertexId) :=
  (a.nodeOf v).map fun i =>
    ascending VertexId.index
      ((Multigraph.neighborsAt i a.graph).filterMap (Multigraph.node? · a.graph))

/-- How many edges are at a vertex. -/
def degree (a : Adjacency γ) (v : VertexId) : Except LayoutError Nat :=
  (a.incident v).map List.length

end Adjacency

end SpringLayout
