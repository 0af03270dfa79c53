import SpringLayout.Graph.Edge

/-!
Undirected multigraphs, to keep the edges of a layout in.

A `Multigraph` is any type of graphs whose nodes and edges are put in one by one, each with a
weight: nodes carry vertices, edges carry places in an edge list. Which number a node or an edge is
given, and in which order the edges at a node are met, is for the type to say. `IncidenceTable` is
one that meets the latest edge first, and a loop twice.
-/

namespace SpringLayout

/-- An undirected multigraph. Nodes are told apart by numbers, and so are edges. -/
class Multigraph (γ : Type) where
  /-- The graph without nodes. -/
  empty : γ
  addNode (weight : VertexId) (g : γ) : γ
  /-- One more edge, between the nodes of two numbers. -/
  addEdge (first second : Nat) (weight : EdgeId) (g : γ) : γ
  nodeCount (g : γ) : Nat
  edgeCount (g : γ) : Nat
  /-- The weight of a node. -/
  node? (i : Nat) (g : γ) : Option VertexId
  /-- The nodes that an edge is between. -/
  ends? (k : Nat) (g : γ) : Option (Nat × Nat)
  /-- The weights of the edges at a node, as they are met. -/
  edgesAt (i : Nat) (g : γ) : List EdgeId
  /-- The nodes across the edges at a node, as they are met. -/
  neighborsAt (i : Nat) (g : γ) : List Nat

/-- An edge between two nodes, by their numbers. -/
structure Bond where
  first : Nat
  second : Nat
  weight : EdgeId
deriving DecidableEq, Repr

/-- The node across an edge from node `i`; for a loop `i` itself. -/
def Bond.across (e : Bond) (i : Nat) : Nat := if e.first = i then e.second else e.first

/-- A multigraph that keeps for each node the numbers of the edges at it, the latest first. A loop
is entered twice. -/
structure IncidenceTable where
  nodes : Array VertexId
  bonds : Array Bond
  incidence : Array (List Nat)
deriving Repr

namespace IncidenceTable

/-- One more edge, entered at both of its ends. -/
def addBond (e : Bond) (g : IncidenceTable) : IncidenceTable :=
  let enter := fun (rows : Array (List Nat)) i => rows.modify i (g.bonds.size :: ·)
  { g with
    bonds := g.bonds.push e
    incidence := enter (enter g.incidence e.first) e.second }

/-- The edges at a node. -/
def bondsAt (i : Nat) (g : IncidenceTable) : List Bond :=
  (g.incidence.getD i []).filterMap fun k => g.bonds[k]?

instance : Multigraph IncidenceTable where
  empty := ⟨#[], #[], #[]⟩
  addNode weight g :=
    { g with nodes := g.nodes.push weight, incidence := g.incidence.push [] }
  addEdge first second weight := addBond ⟨first, second, weight⟩
  nodeCount g := g.nodes.size
  edgeCount g := g.bonds.size
  node? i g := g.nodes[i]?
  ends? k g := g.bonds[k]?.map fun e => (e.first, e.second)
  edgesAt i g := (g.bondsAt i).map Bond.weight
  neighborsAt i g := (g.bondsAt i).map (Bond.across · i)

end IncidenceTable

end SpringLayout
