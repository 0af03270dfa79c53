import SpringLayout.Proofs.Graph.Incidence
import SpringLayout.Proofs.Simulation.Matched

/-!
One verdict on the edges.

The edges of a graph are checked at three places: when they are read from a description, when the
state of a simulation is checked, before every step of it, and when they are entered into an
adjacency. `EdgeVerdict` says what a check should come to, by the edge list alone, and
`Description.checks_agree` that all of these come to one such verdict.
-/

namespace SpringLayout

open Simulation (firstStray?)

/-- What a check of the edges between `count` vertices comes to. -/
inductive EdgeVerdict (count : Nat) (edges : List Edge) : Except LayoutError Unit → Prop where
  | accepted : (∀ e ∈ edges, e.head.index < count ∧ e.tail.index < count) →
      EdgeVerdict count edges (.ok ())
  /-- Edge number `k` is the first with an end past the last vertex, and is named as it is. -/
  | refused {k : Nat} {e : Edge} : edges[k]? = some e →
      count ≤ e.head.index ∨ count ≤ e.tail.index →
      (∀ j < k, ∀ f, edges[j]? = some f → f.head.index < count ∧ f.tail.index < count) →
      EdgeVerdict count edges (.error (.invalidEdge ⟨k⟩ e count))

theorem edgeVerdict_checked (count : Nat) (edges : List Edge) :
    EdgeVerdict count edges (checked count (firstStray? count edges) ()) := by
  cases stray : firstStray? count edges with
  | none => exact .accepted (Simulation.firstStray?_eq_none_iff.mp stray)
  | some found =>
      obtain ⟨e, k⟩ := found
      obtain ⟨listed, astray, before⟩ := Simulation.firstStray?_eq_some stray
      apply EdgeVerdict.refused listed
      · simp only [Edge.Within, VertexId.Within] at astray
        omega
      · intro j less f found
        obtain ⟨bound, rfl⟩ := List.getElem?_eq_some_iff.mp found
        apply before
        rw [List.mem_take_iff_getElem]
        exact ⟨j, by omega, rfl⟩

theorem Simulation.edgeVerdict_validate {α : Type} {s : Simulation α}
    (same : s.positions.size = s.velocities.size) :
    EdgeVerdict s.positions.size s.edges s.validate := by
  rw [validate_eq, if_pos same.symm]
  exact edgeVerdict_checked s.positions.size s.edges

/-- A check comes to a refusal just where some edge is astray. -/
theorem EdgeVerdict.exists_error_iff {count : Nat} {edges : List Edge}
    {verdict : Except LayoutError Unit} (reached : EdgeVerdict count edges verdict) :
    (∃ id e n, verdict = .error (.invalidEdge id e n)) ↔
      ∃ e ∈ edges, count ≤ e.head.index ∨ count ≤ e.tail.index := by
  cases reached with
  | accepted within =>
      refine iff_of_false (by rintro ⟨id, e, n, ⟨⟩⟩) ?_
      rintro ⟨e, mem, astray⟩
      have inside := within e mem
      omega
  | refused listed astray before =>
      exact iff_of_true ⟨_, _, _, rfl⟩ ⟨_, List.mem_of_getElem? listed, astray⟩

/-- What is answered besides an accepted check plays no part in it. -/
theorem checked_eq_map {β : Type} (count : Nat) (stray : Option (Edge × Nat)) (b : β) :
    checked count stray b = (checked count stray ()).map fun _ => b := by
  cases stray with
  | none => rfl
  | some found => rfl

namespace Adjacency

variable {γ : Type} [Multigraph γ]

/-- The edges that an adjacency tells, in order. -/
def edgeList (a : Adjacency γ) : List Edge :=
  (List.range a.edgeCount).filterMap fun k => a.edge? ⟨k⟩

theorem filterMap_range_getElem? (edges : List Edge) :
    (List.range edges.length).filterMap (edges[·]?) = edges := by
  induction edges with
  | nil => rfl
  | cons e rest ih =>
      rw [List.length_cons, List.range_succ_eq_map, List.filterMap_cons, List.filterMap_map]
      exact congrArg (e :: ·) ih

theorem edgeList_of_build (lawful : Multigraph.Lawful γ) {count : Nat} {edges : List Edge}
    {a : Adjacency γ} (built : build count edges = .ok a) : a.edgeList = edges := by
  simp only [edgeList, edgeCount_of_build lawful built, edge?_of_build lawful built]
  exact filterMap_range_getElem? edges

theorem map_build (count : Nat) (edges : List Edge) :
    (build count edges : Except LayoutError (Adjacency γ)).map (fun _ => ()) =
      checked count (firstStray? count edges) () := by
  rw [build_eq_checked]
  cases firstStray? count edges with
  | none => rfl
  | some found => rfl

end Adjacency

/-- The edges of a description are checked alike by the description, by any simulation of as many
vertices, by each of its steps, and by the adjacency. Where they are accepted, they are the same
edges in the same order everywhere; of the adjacency this is known if its multigraph is lawful. -/
theorem Description.checks_agree {α γ : Type} [PolarScalar α] [Multigraph γ] (d : Description α)
    (c : Config α) (positions velocities : Vector (Vec α) d.vertexCount) :
    let edges := d.edges.map EdgeEntry.edge
    let s := Simulation.ofVectors positions velocities edges
    let built : Except LayoutError (Adjacency γ) := Adjacency.build d.vertexCount edges
    ∃ verdict, EdgeVerdict d.vertexCount edges verdict ∧
      d.layoutEdges = (verdict.map fun _ => edges) ∧
      s.validate = verdict ∧
      (s.step c).1.map (fun _ => ()) = verdict ∧
      built.map (fun _ => ()) = verdict ∧
      (Multigraph.Lawful γ → built.map Adjacency.edgeList = verdict.map fun _ => edges) := by
  intro edges s built
  have validate : s.validate = checked d.vertexCount (firstStray? d.vertexCount edges) () :=
    Simulation.validate_ofVectors positions velocities edges
  have entered : built.map (fun _ => ()) =
      checked d.vertexCount (firstStray? d.vertexCount edges) () :=
    Adjacency.map_build d.vertexCount edges
  refine ⟨_, edgeVerdict_checked d.vertexCount edges, ?_, validate, ?_, entered, ?_⟩
  · rw [← checked_eq_map]
    exact d.layoutEdges_eq_checked
  · rw [Simulation.map_step, validate]
  · intro lawful
    rw [← entered]
    cases answer : built with
    | error e => rfl
    | ok a => exact congrArg Except.ok (Adjacency.edgeList_of_build lawful answer)

end SpringLayout
