import SpringLayout.Proofs.Graph.Ascending
import SpringLayout.Proofs.Graph.Checks
import SpringLayout.Proofs.Graph.Multigraph

/-!
Who touches what, by the edge list.

An adjacency that was built is made of its vertices and its edges, entered in order
(`Adjacency.madeOf_of_build`). A lawful multigraph then meets at a vertex the edges that have an end
there, and sorted without repetitions they are `edgesAt` (`Adjacency.incident_of_build`). Main
statement: every question about a graph that was built is answered as its edge list answers it,
parallel edges and loops included (`Adjacency.answersBy_of_build`).
-/

namespace SpringLayout

/-! ### The ends of an edge -/

theorem VertexId.index_inj {u v : VertexId} : u.index = v.index ↔ u = v :=
  ⟨congrArg VertexId.mk, congrArg VertexId.index⟩

/-- The edge joins the two vertices, one way round or the other. -/
abbrev Edge.Joins (e : Edge) (u v : VertexId) : Prop :=
  e.head = u ∧ e.tail = v ∨ e.head = v ∧ e.tail = u

/-- The vertex across an edge from `v` is the one that the edge joins to `v`. -/
theorem Edge.joins_iff {e : Edge} {u v : VertexId} :
    e.Joins u v ↔ e.Touches v ∧ e.across v = u := by
  obtain ⟨h, t⟩ := e
  unfold Joins Touches across
  by_cases head : h = v
  · subst head
    simp only [if_true, true_or, true_and]
    constructor
    · rintro (⟨rfl, rfl⟩ | rfl)
      · rfl
      · rfl
    · intro across
      exact Or.inr across
  · simp only [head, if_false, false_or, false_and, or_false]
    exact and_comm

theorem Edge.joins_self_iff {e : Edge} {v : VertexId} : e.Joins v v ↔ e.IsLoop ∧ e.head = v := by
  constructor
  · rintro (⟨rfl, same⟩ | ⟨rfl, same⟩)
    · exact ⟨same.symm, rfl⟩
    · exact ⟨same.symm, rfl⟩
  · rintro ⟨loop, rfl⟩
    exact Or.inl ⟨rfl, loop.symm⟩

/-- The edge at place `k` of an edge list as a graph holds it. -/
def Edge.bond (e : Edge) (k : Nat) : Bond := ⟨e.head.index, e.tail.index, ⟨k⟩⟩

theorem Edge.touches_bond_iff {e : Edge} {k : Nat} {v : VertexId} :
    (e.bond k).Touches v.index ↔ e.Touches v := by
  simp only [bond, Bond.Touches, VertexId.index_inj]

theorem Edge.joins_bond_iff {e : Edge} {k : Nat} {u v : VertexId} :
    (e.bond k).Joins u.index v.index ↔ e.Joins u v := by
  simp only [bond, Bond.Joins, VertexId.index_inj]

/-- The places, counted from `k`, of the edges at `v`, in their order. -/
def edgesAt (k : Nat) (edges : List Edge) (v : VertexId) : List EdgeId :=
  ((edges.zipIdx k).filter fun (e, _) => e.Touches v).map fun (_, i) => ⟨i⟩

theorem edgesAt_cons (k : Nat) (e : Edge) (rest : List Edge) (v : VertexId) :
    edgesAt k (e :: rest) v =
      (if e.Touches v then [⟨k⟩] else []) ++ edgesAt (k + 1) rest v := by
  rw [edgesAt, List.zipIdx_cons, List.filter_cons]
  by_cases touches : e.Touches v
  · rw [if_pos touches, if_pos (decide_eq_true touches)]
    rfl
  · rw [if_neg touches, if_neg (by simpa using touches)]
    rfl

theorem mem_edgesAt_iff {edges : List Edge} {v : VertexId} {i : EdgeId} :
    i ∈ edgesAt 0 edges v ↔ ∃ e, edges[i.index]? = some e ∧ e.Touches v := by
  simp only [edgesAt, List.mem_map, List.mem_filter, decide_eq_true_eq, Prod.exists]
  constructor
  · rintro ⟨e, k, ⟨listed, touches⟩, rfl⟩
    exact ⟨e, List.mem_zipIdx_iff_getElem?.mp listed, touches⟩
  · rintro ⟨e, found, touches⟩
    exact ⟨e, i.index, ⟨List.mem_zipIdx_iff_getElem?.mpr found, touches⟩, rfl⟩

/-- Each edge is counted once, and in ascending order. -/
theorem pairwise_edgesAt (k : Nat) (edges : List Edge) (v : VertexId) :
    (edgesAt k edges v).Pairwise (·.index < ·.index) := by
  have places : ((edges.zipIdx k).map Prod.snd).Pairwise (· < ·) := by
    rw [List.zipIdx_map_snd]
    exact List.pairwise_lt_range' 1
  rw [List.pairwise_map] at places
  unfold edgesAt
  rw [List.pairwise_map]
  exact places.filter _

namespace Adjacency

variable {γ : Type} [Multigraph γ]

open Multigraph (MadeOf)

/-! ### The graph that is built -/

/-- The edges as the graph holds them, numbered from `k`. -/
def bonds (k : Nat) (edges : List Edge) : List Bond :=
  (edges.zipIdx k).map fun (e, k) => e.bond k

theorem bonds_cons (k : Nat) (e : Edge) (rest : List Edge) :
    bonds k (e :: rest) = e.bond k :: bonds (k + 1) rest := by
  rw [bonds, List.zipIdx_cons]
  rfl

theorem getElem?_bonds (edges : List Edge) (k : Nat) :
    (bonds 0 edges)[k]? = edges[k]?.map (Edge.bond · k) := by
  rw [bonds, List.getElem?_map, List.getElem?_zipIdx]
  cases edges[k]? with
  | none => rfl
  | some e => simp

theorem mem_bonds_iff {edges : List Edge} {b : Bond} :
    b ∈ bonds 0 edges ↔ ∃ k, ∃ e : Edge, edges[k]? = some e ∧ e.bond k = b := by
  simp only [List.mem_iff_getElem?, getElem?_bonds, Option.map_eq_some_iff]

/-- The vertices as the graph holds them. -/
def vertices (count : Nat) : List VertexId := (List.range count).map VertexId.mk

theorem length_vertices (count : Nat) : (vertices count).length = count := by
  rw [vertices, List.length_map, List.length_range]

theorem getElem?_vertices (count i : Nat) :
    (vertices count)[i]? = if i < count then some ⟨i⟩ else none := by
  rw [vertices, List.getElem?_map]
  by_cases inside : i < count
  · rw [if_pos inside, List.getElem?_range inside]
    rfl
  · rw [if_neg inside, List.getElem?_eq_none (by simpa using inside)]
    rfl

theorem madeOf_nodes (count : Nat) : MadeOf (vertices count) [] (nodes count : γ) := by
  induction count with
  | zero => exact .empty
  | succ count ih =>
      unfold vertices nodes
      rw [List.range_succ, List.map_append, List.foldl_append]
      exact .addNode ⟨count⟩ ih

theorem madeOf_entered {count k : Nat} {edges : List Edge} {earlier : List Bond} {g : γ}
    (within : ∀ e ∈ edges, e.Within count) (made : MadeOf (vertices count) earlier g) :
    MadeOf (vertices count) (earlier ++ bonds k edges) (entered k edges g) := by
  induction edges generalizing k earlier g with
  | nil =>
      rw [show bonds k [] = [] from rfl, List.append_nil]
      exact made
  | cons e rest ih =>
      obtain ⟨⟨head, tail⟩, others⟩ := List.forall_mem_cons.mp within
      rw [← length_vertices count] at head tail
      rw [entered_cons, bonds_cons, List.append_cons]
      exact ih others (made.addEdge (e.bond k) head tail)

section Built

variable {count : Nat} {edges : List Edge} {a : Adjacency γ} {u v : VertexId}

theorem within_of_build (built : build count edges = .ok a) : ∀ e ∈ edges, e.Within count :=
  (of_build_eq_ok built).1

/-- A graph that was built is made of its vertices and its edges, in order. -/
theorem madeOf_of_build (built : build count edges = .ok a) :
    MadeOf (vertices count) (bonds 0 edges) a.graph := by
  obtain ⟨within, graph⟩ := of_build_eq_ok built
  rw [graph]
  exact madeOf_entered within (madeOf_nodes count)

/-! ### What is answered -/

variable (lawful : Multigraph.Lawful γ) (built : build count edges = .ok a)

include lawful built

theorem vertexCount_of_build : a.vertexCount = count := by
  rw [vertexCount, lawful.nodeCount (madeOf_of_build built), length_vertices]

theorem edgeCount_of_build : a.edgeCount = edges.length := by
  rw [edgeCount, lawful.edgeCount (madeOf_of_build built), bonds, List.length_map,
    List.length_zipIdx]

theorem edge?_of_build (k : EdgeId) : a.edge? k = edges[k.index]? := by
  have made := madeOf_of_build built
  simp only [edge?, lawful.ends? made, lawful.node? made, getElem?_bonds, getElem?_vertices]
  cases found : edges[k.index]? with
  | none => rfl
  | some e =>
      obtain ⟨head, tail⟩ := within_of_build built e (List.mem_of_getElem? found)
      simp [Edge.bond, if_pos head, if_pos tail]

theorem nodeOf_of_build (v : VertexId) :
    a.nodeOf v = if v.Within count then .ok v.index else .error (.invalidVertex v count) := by
  rw [nodeOf, vertexCount_of_build lawful built]

/-- At the node of a vertex the edges are met that touch it. -/
theorem mem_met_iff (within : v.Within count) {k : EdgeId} :
    k ∈ Multigraph.edgesAt v.index a.graph ↔ ∃ e, edges[k.index]? = some e ∧ e.Touches v := by
  rw [← length_vertices count] at within
  simp only [lawful.mem_edgesAt_iff (madeOf_of_build built) v.index within, mem_bonds_iff]
  constructor
  · rintro ⟨_, ⟨i, e, found, rfl⟩, touches, rfl⟩
    exact ⟨e, found, Edge.touches_bond_iff.mp touches⟩
  · rintro ⟨e, found, touches⟩
    exact ⟨_, ⟨k.index, e, found, rfl⟩, Edge.touches_bond_iff.mpr touches, rfl⟩

/-- Across them are the vertices that an edge joins to it. -/
theorem mem_across_iff (within : v.Within count) :
    u ∈ (Multigraph.neighborsAt v.index a.graph).filterMap (Multigraph.node? · a.graph) ↔
      ∃ e ∈ edges, e.Joins u v := by
  have made := madeOf_of_build built
  rw [← length_vertices count] at within
  simp only [List.mem_filterMap, lawful.mem_neighborsAt_iff made v.index within,
    lawful.node? made, getElem?_vertices, mem_bonds_iff]
  constructor
  · rintro ⟨j, ⟨_, ⟨i, e, found, rfl⟩, joins⟩, node⟩
    split at node
    · cases node
      exact ⟨e, List.mem_of_getElem? found, Edge.joins_bond_iff.mp joins.symm⟩
    · cases node
  · rintro ⟨e, mem, joins⟩
    obtain ⟨i, found⟩ := List.getElem?_of_mem mem
    have ends := within_of_build built e mem
    have inside : u.index < count := by
      rcases joins with ⟨rfl, -⟩ | ⟨-, rfl⟩
      · exact ends.1
      · exact ends.2
    have met := (Edge.joins_bond_iff (k := i)).mpr joins
    exact ⟨u.index, ⟨_, ⟨i, e, found, rfl⟩, met.symm⟩, if_pos inside⟩

/-- The edges at a vertex of a graph that was built are those of the edge list that touch it. -/
theorem incident_of_build (v : VertexId) :
    a.incident v =
      if v.Within count then .ok (edgesAt 0 edges v) else .error (.invalidVertex v count) := by
  rw [incident, nodeOf_of_build lawful built]
  by_cases within : v.Within count
  · rw [if_pos within, if_pos within]
    refine congrArg Except.ok (ascending_eq_of_mem_iff (fun _ _ => congrArg EdgeId.mk)
      (pairwise_edgesAt 0 edges v) fun k => ?_)
    rw [mem_met_iff lawful built within, mem_edgesAt_iff]
  · rw [if_neg within, if_neg within]
    rfl

theorem incident_of_within (within : v.Within count) :
    a.incident v = .ok (edgesAt 0 edges v) := by
  rw [incident_of_build lawful built, if_pos within]

theorem neighbors_of_within (within : v.Within count) :
    a.neighbors v = .ok (ascending VertexId.index
      ((Multigraph.neighborsAt v.index a.graph).filterMap (Multigraph.node? · a.graph))) := by
  rw [neighbors, nodeOf_of_build lawful built, if_pos within]
  rfl

end Built

/-- Every question about the graph is answered as the list of its edges answers it. -/
structure AnswersBy (count : Nat) (edges : List Edge) (a : Adjacency γ) : Prop where
  vertexCount : a.vertexCount = count
  edgeCount : a.edgeCount = edges.length
  /-- An edge keeps its head and its tail; past the last one there is none. -/
  edge? : ∀ k, a.edge? ⟨k⟩ = edges[k]?
  /-- The edges at a vertex are those with an end there, ascending and each once. -/
  incident : ∀ v : VertexId, v.Within count →
    ∃ ids, a.incident v = .ok ids ∧ a.degree v = .ok ids.length ∧
      ids.Pairwise (·.index < ·.index) ∧
      ∀ k, ⟨k⟩ ∈ ids ↔ ∃ e, edges[k]? = some e ∧ (e.head = v ∨ e.tail = v)
  /-- The neighbors of a vertex are those that some edge joins to it, ascending and each once. A
  vertex is its own neighbor when it has a loop. -/
  neighbors : ∀ v : VertexId, v.Within count →
    ∃ us, a.neighbors v = .ok us ∧ us.Pairwise (·.index < ·.index) ∧
      (∀ u, u ∈ us ↔ ∃ e ∈ edges, e.Joins u v) ∧
      (v ∈ us ↔ ∃ e ∈ edges, e.IsLoop ∧ e.head = v)
  /-- There is nothing to tell of a vertex past the last one. -/
  refused : ∀ v : VertexId, ¬ v.Within count →
    a.incident v = .error (.invalidVertex v count) ∧
      a.degree v = .error (.invalidVertex v count) ∧
      a.neighbors v = .error (.invalidVertex v count)

/-- A graph that was built answers every question by its edge list, whatever multigraph its edges
are kept in. -/
theorem answersBy_of_build (lawful : Multigraph.Lawful γ) {count : Nat} {edges : List Edge}
    {a : Adjacency γ} (built : build count edges = .ok a) : a.AnswersBy count edges := by
  constructor
  · exact vertexCount_of_build lawful built
  · exact edgeCount_of_build lawful built
  · intro k
    exact edge?_of_build lawful built ⟨k⟩
  · intro v within
    have answered := incident_of_within lawful built within
    refine ⟨_, answered, ?_, pairwise_edgesAt 0 edges v, ?_⟩
    · rw [degree, answered]
      rfl
    · intro k
      exact mem_edgesAt_iff
  · intro v within
    refine ⟨_, neighbors_of_within lawful built within,
      pairwise_ascending (fun _ _ => congrArg VertexId.mk) _, ?_, ?_⟩
    · intro u
      rw [mem_ascending_iff]
      exact mem_across_iff lawful built within
    · rw [mem_ascending_iff, mem_across_iff lawful built within]
      simp only [Edge.joins_self_iff]
  · intro v outside
    have refused := nodeOf_of_build lawful built v
    rw [if_neg outside] at refused
    rw [degree, incident, neighbors, refused]
    exact ⟨rfl, rfl, rfl⟩

/-- A triangle with one side given twice and a loop at a corner. -/
def doubledTriangle : List Edge :=
  [⟨⟨0⟩, ⟨1⟩⟩, ⟨⟨1⟩, ⟨2⟩⟩, ⟨⟨2⟩, ⟨0⟩⟩, ⟨⟨1⟩, ⟨0⟩⟩, ⟨⟨2⟩, ⟨2⟩⟩]

theorem answersBy_doubledTriangle :
    ∃ a : Adjacency IncidenceTable, build 3 doubledTriangle = .ok a ∧
      a.AnswersBy 3 doubledTriangle :=
  ⟨_, rfl, answersBy_of_build IncidenceTable.lawful rfl⟩

end Adjacency

end SpringLayout
