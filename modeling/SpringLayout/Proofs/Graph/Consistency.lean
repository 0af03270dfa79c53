import Mathlib.Algebra.BigOperators.Group.Finset.Piecewise
import Mathlib.Algebra.Order.BigOperators.Group.Finset
import SpringLayout.Proofs.Graph.Incidence

/-!
The answers about a graph fit each other.

`AnswersBy` holds what a graph answers against the list of its edges; `Adjacency.Consistent` holds
the answers against one another: the edges at a vertex against the ends of an edge, the neighbors of
two vertices against each other and against the edges that both have, and all degrees together
against the number of edges. Main statement: `Adjacency.consistent_of_build`, for every graph that
was built, parallel edges and loops included.

The degrees are summed edge by edge. An edge has two ends, and is entered at each of them, a loop
once (`Edge.sum_touches`); with one more edge the sum grows by as much (`sum_length_edgesAt`).
-/

namespace SpringLayout

open Finset (range)

theorem Edge.joins_comm {e : Edge} {u v : VertexId} : e.Joins u v ↔ e.Joins v u := or_comm

theorem Edge.Joins.touches {e : Edge} {u v : VertexId} (joins : e.Joins u v) :
    e.Touches u ∧ e.Touches v :=
  ⟨(joins_iff.mp (joins_comm.mp joins)).1, (joins_iff.mp joins).1⟩

/-! ### Counting ends -/

/-- Among the first `count` vertices, `v` is met once. -/
theorem sum_eq_vertex {count : Nat} {v : VertexId} (within : v.Within count) :
    ∑ i ∈ range count, (if v = ⟨i⟩ then 1 else 0) = 1 := by
  obtain ⟨k⟩ := v
  simp only [VertexId.mk.injEq]
  rw [Finset.sum_ite_eq, if_pos (Finset.mem_range.mpr within)]

/-- An edge touches two vertices, and one if it is a loop. -/
theorem Edge.sum_touches {count : Nat} {e : Edge} (within : e.Within count) :
    ∑ i ∈ range count, (if e.Touches ⟨i⟩ then 1 else 0) + (if e.IsLoop then 1 else 0) = 2 := by
  have head := sum_eq_vertex within.1
  by_cases loop : e.IsLoop
  · simp only [Touches, ← loop, or_self]
    rw [head, if_pos loop]
  · have tail := sum_eq_vertex within.2
    have ends : ∀ i : Nat, (if e.Touches ⟨i⟩ then 1 else 0) =
        (if e.head = ⟨i⟩ then 1 else 0) + (if e.tail = ⟨i⟩ then 1 else 0) := by
      intro i
      by_cases atHead : e.head = ⟨i⟩
      · have elsewhere : e.tail ≠ ⟨i⟩ := fun atTail => loop (atHead.trans atTail.symm)
        simp [atHead, elsewhere]
      · simp [Touches, atHead]
    rw [if_neg loop]
    simp only [ends]
    rw [Finset.sum_add_distrib, head, tail]

/-- Vertex by vertex, every edge is counted twice, and a loop once. -/
theorem sum_length_edgesAt {count : Nat} {edges : List Edge} (k : Nat)
    (within : ∀ e ∈ edges, e.Within count) :
    ∑ i ∈ range count, (edgesAt k edges ⟨i⟩).length + edges.countP (fun e => e.IsLoop) =
      2 * edges.length := by
  induction edges generalizing k with
  | nil => simp [edgesAt]
  | cons e rest ih =>
      obtain ⟨first, others⟩ := List.forall_mem_cons.mp within
      have ends := e.sum_touches first
      have counted := ih (k + 1) others
      have split : ∀ i : Nat, (edgesAt k (e :: rest) ⟨i⟩).length =
          (if e.Touches ⟨i⟩ then 1 else 0) + (edgesAt (k + 1) rest ⟨i⟩).length := by
        intro i
        rw [edgesAt_cons, List.length_append]
        split
        · rfl
        · rfl
      simp only [split, Finset.sum_add_distrib, List.countP_cons, List.length_cons,
        decide_eq_true_eq]
      omega

namespace Adjacency

variable {γ : Type} [Multigraph γ]

/-! ### What is answered -/

section Answers

variable {count : Nat} {edges : List Edge} {a : Adjacency γ} {u v : VertexId}
  (lawful : Multigraph.Lawful γ) (built : build count edges = .ok a)

include lawful built

theorem incident_eq_ok_iff {ids : List EdgeId} :
    a.incident v = .ok ids ↔ v.Within count ∧ edgesAt 0 edges v = ids := by
  rw [incident_of_build lawful built]
  by_cases within : v.Within count
  · simp [within]
  · simp [within]

theorem degree_eq_ok_iff {degree : Nat} :
    a.degree v = .ok degree ↔ v.Within count ∧ (edgesAt 0 edges v).length = degree := by
  rw [Adjacency.degree, incident_of_build lawful built]
  by_cases within : v.Within count
  · simp [within, Except.map]
  · simp [within, Except.map]

/-- Only a vertex of the graph is answered. Its neighbors are those that some edge joins to it, each
once. -/
theorem of_neighbors_eq_ok {vs : List VertexId} (answered : a.neighbors v = .ok vs) :
    v.Within count ∧ vs.Nodup ∧ ∀ u, u ∈ vs ↔ ∃ e ∈ edges, e.Joins u v := by
  by_cases within : v.Within count
  · rw [neighbors_of_within lawful built within] at answered
    cases answered
    refine ⟨within, ?_, ?_⟩
    · exact nodup_of_pairwise (pairwise_ascending (fun _ _ => congrArg VertexId.mk) _)
    · intro u
      rw [mem_ascending_iff, mem_across_iff lawful built within]
  · rw [Adjacency.neighbors, nodeOf_of_build lawful built, if_neg within] at answered
    cases answered

/-- A vertex has no more neighbors than edges: each is across one of them. -/
theorem length_neighbors_le_of_build {vs : List VertexId} (answered : a.neighbors v = .ok vs) :
    vs.length ≤ (edgesAt 0 edges v).length := by
  obtain ⟨-, unrepeated, members⟩ := of_neighbors_eq_ok lawful built answered
  have across : vs ⊆ (edgesAt 0 edges v).filterMap fun k =>
      edges[k.index]?.map fun e => e.across v := by
    intro u mem
    obtain ⟨e, mem, joins⟩ := (members u).mp mem
    obtain ⟨touches, across⟩ := Edge.joins_iff.mp joins
    obtain ⟨k, found⟩ := List.getElem?_of_mem mem
    rw [List.mem_filterMap]
    refine ⟨⟨k⟩, mem_edgesAt_iff.mpr ⟨e, found, touches⟩, ?_⟩
    rw [found, Option.map_some, across]
  exact (unrepeated.length_le_of_subset across).trans (List.length_filterMap_le _ _)

end Answers

/-! ### The answers together -/

/-- How many edges are told to have both ends at one vertex. -/
def loopCount (a : Adjacency γ) : Nat :=
  (List.range a.edgeCount).countP fun k => (a.edge? ⟨k⟩).any fun e => e.IsLoop

/-- What is answered about vertices and what is answered about edges fit each other. -/
structure Consistent (a : Adjacency γ) : Prop where
  /-- Every vertex is answered, and every question about it. -/
  answered : ∀ v : VertexId, v.Within a.vertexCount →
    ∃ ids vs, a.incident v = .ok ids ∧ a.neighbors v = .ok vs ∧ a.degree v = .ok ids.length
  /-- Every edge is answered, and has its ends among the vertices. -/
  ended : ∀ k : EdgeId, k.index < a.edgeCount → ∃ e, a.edge? k = some e ∧ e.Within a.vertexCount
  /-- An edge is at a vertex just if that is one of its ends. -/
  mem_incident_iff : ∀ {v ids}, a.incident v = .ok ids →
    ∀ k, k ∈ ids ↔ ∃ e, a.edge? k = some e ∧ (e.head = v ∨ e.tail = v)
  neighbors_symm : ∀ {u v us vs}, a.neighbors u = .ok us → a.neighbors v = .ok vs →
    (u ∈ vs ↔ v ∈ us)
  /-- Neighbors have an edge in common, which has its ends at the two. -/
  mem_neighbors_iff : ∀ {u v vs ids ids'}, a.neighbors v = .ok vs →
    a.incident u = .ok ids → a.incident v = .ok ids' →
    (u ∈ vs ↔ ∃ k, k ∈ ids ∧ k ∈ ids' ∧ ∃ e, a.edge? k = some e ∧ e.Joins u v)
  /-- Parallel edges lead to one neighbor. -/
  length_neighbors_le : ∀ {v vs degree}, a.neighbors v = .ok vs → a.degree v = .ok degree →
    vs.length ≤ degree
  /-- All degrees together count every edge twice, but a loop once. -/
  sum_degree : ∃ degree : VertexId → Nat,
    (∀ v : VertexId, v.Within a.vertexCount → a.degree v = .ok (degree v)) ∧
      ∑ i ∈ range a.vertexCount, degree ⟨i⟩ + a.loopCount = 2 * a.edgeCount

/-- Members of a list are counted by their places. -/
theorem countP_range_any (p : Edge → Bool) (edges : List Edge) :
    (List.range edges.length).countP (fun k => edges[k]?.any p) = edges.countP p := by
  induction edges with
  | nil => rfl
  | cons e rest ih =>
      rw [List.length_cons, List.range_succ_eq_map, List.countP_cons, List.countP_map,
        List.countP_cons, ← ih]
      rfl

section Built

variable {count : Nat} {edges : List Edge} {a : Adjacency γ}

theorem loopCount_of_build (lawful : Multigraph.Lawful γ) (built : build count edges = .ok a) :
    a.loopCount = edges.countP fun e => e.IsLoop := by
  simp only [loopCount, edgeCount_of_build lawful built, edge?_of_build lawful built]
  exact countP_range_any _ edges

/-- The edges that two vertices have in common join them, and others do not. -/
theorem exists_joins_iff (lawful : Multigraph.Lawful γ) (built : build count edges = .ok a)
    {u v : VertexId} :
    (∃ e ∈ edges, e.Joins u v) ↔ ∃ k, k ∈ edgesAt 0 edges u ∧ k ∈ edgesAt 0 edges v ∧
      ∃ e, a.edge? k = some e ∧ e.Joins u v := by
  simp only [edge?_of_build lawful built, mem_edgesAt_iff]
  constructor
  · rintro ⟨e, mem, joins⟩
    obtain ⟨k, found⟩ := List.getElem?_of_mem mem
    obtain ⟨atU, atV⟩ := joins.touches
    exact ⟨⟨k⟩, ⟨e, found, atU⟩, ⟨e, found, atV⟩, e, found, joins⟩
  · rintro ⟨k, -, -, e, found, joins⟩
    exact ⟨e, List.mem_of_getElem? found, joins⟩

/-- Whatever graph was built, its answers fit each other. -/
theorem consistent_of_build (lawful : Multigraph.Lawful γ) (built : build count edges = .ok a) :
    a.Consistent := by
  have vertexCount := vertexCount_of_build lawful built
  have within := within_of_build built
  constructor
  · intro v inside
    rw [vertexCount] at inside
    refine ⟨_, _, incident_of_within lawful built inside,
      neighbors_of_within lawful built inside, ?_⟩
    exact (degree_eq_ok_iff lawful built).mpr ⟨inside, rfl⟩
  · intro k inside
    rw [edgeCount_of_build lawful built] at inside
    rw [edge?_of_build lawful built, vertexCount, List.getElem?_eq_getElem inside]
    exact ⟨_, rfl, within _ (List.getElem_mem inside)⟩
  · intro v ids answered k
    obtain ⟨-, rfl⟩ := (incident_eq_ok_iff lawful built).mp answered
    rw [edge?_of_build lawful built]
    exact mem_edgesAt_iff
  · intro u v us vs answeredU answeredV
    obtain ⟨-, -, atU⟩ := of_neighbors_eq_ok lawful built answeredU
    obtain ⟨-, -, atV⟩ := of_neighbors_eq_ok lawful built answeredV
    rw [atU, atV]
    exact exists_congr fun e => and_congr_right fun _ => Edge.joins_comm
  · intro u v vs ids ids' answered incidentU incidentV
    obtain ⟨-, rfl⟩ := (incident_eq_ok_iff lawful built).mp incidentU
    obtain ⟨-, rfl⟩ := (incident_eq_ok_iff lawful built).mp incidentV
    obtain ⟨-, -, atV⟩ := of_neighbors_eq_ok lawful built answered
    rw [atV]
    exact exists_joins_iff lawful built
  · intro v vs degree answered counted
    obtain ⟨-, rfl⟩ := (degree_eq_ok_iff lawful built).mp counted
    exact length_neighbors_le_of_build lawful built answered
  · refine ⟨fun v => (edgesAt 0 edges v).length, ?_, ?_⟩
    · intro v inside
      rw [vertexCount] at inside
      exact (degree_eq_ok_iff lawful built).mpr ⟨inside, rfl⟩
    · rw [vertexCount, edgeCount_of_build lawful built, loopCount_of_build lawful built]
      exact sum_length_edgesAt 0 within

theorem consistent_doubledTriangle :
    ∃ a : Adjacency IncidenceTable, build 3 doubledTriangle = .ok a ∧ a.Consistent ∧
      a.edgeCount = 5 ∧ a.loopCount = 1 :=
  ⟨_, rfl, @consistent_of_build _ _ 3 doubledTriangle _ IncidenceTable.lawful rfl, rfl, rfl⟩

end Built

end Adjacency

end SpringLayout
