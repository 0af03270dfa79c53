import SpringLayout.Graph.Adjacency
import SpringLayout.Proofs.Simulation.Valid
import SpringLayout.Simulation.Start

/-!
The checks of edges against a number of vertices.

A description, a list of edges to be made an adjacency and a simulation are each checked in a
traversal of its own. All three look for the first stray edge, `Simulation.firstStray?`, and refuse
it in the same words, `checked`: `Description.layoutEdges_eq_checked` and
`Adjacency.build_eq_checked`.
-/

namespace SpringLayout

open Simulation (firstStray?)

/-- The answer of a check that found `stray` and is to answer `b` otherwise. -/
def checked {β : Type} (count : Nat) (stray : Option (Edge × Nat)) (b : β) :
    Except LayoutError β :=
  match stray with
  | some (e, k) => .error (.invalidEdge ⟨k⟩ e count)
  | none => .ok b

/-- The first stray edge when the edges are numbered from `k`. -/
def strayFrom? (count k : Nat) (edges : List Edge) : Option (Edge × Nat) :=
  (edges.zipIdx k).find? fun (e, _) => ¬ e.Within count

theorem strayFrom?_cons_of_within {count k : Nat} {e : Edge} (rest : List Edge)
    (within : e.Within count) :
    strayFrom? count k (e :: rest) = strayFrom? count (k + 1) rest := by
  rw [strayFrom?, List.zipIdx_cons, List.find?_cons_of_neg (by simpa using within)]
  rfl

theorem strayFrom?_cons_of_not_within {count k : Nat} {e : Edge} (rest : List Edge)
    (astray : ¬ e.Within count) :
    strayFrom? count k (e :: rest) = some (e, k) := by
  rw [strayFrom?, List.zipIdx_cons]
  exact List.find?_cons_of_pos (decide_eq_true astray)

theorem Description.mapM_zipIdx (count k : Nat) (entries : List EdgeEntry) :
    ((entries.zipIdx k).mapM fun (entry, k) =>
        if entry.edge.Within count then .ok entry.edge
        else .error (.invalidEdge ⟨k⟩ entry.edge count)) =
      checked count (strayFrom? count k (entries.map EdgeEntry.edge))
        (entries.map EdgeEntry.edge) := by
  induction entries generalizing k with
  | nil => rfl
  | cons entry rest ih =>
      rw [List.zipIdx_cons, List.mapM_cons, ih, List.map_cons]
      dsimp only
      by_cases within : entry.edge.Within count
      · rw [strayFrom?_cons_of_within _ within, if_pos within]
        cases strayFrom? count (k + 1) (rest.map EdgeEntry.edge) with
        | none => rfl
        | some found => rfl
      · rw [strayFrom?_cons_of_not_within _ within, if_neg within]
        rfl

/-- A description is accepted unless an edge is astray, and then the edges are those described, in
order. -/
theorem Description.layoutEdges_eq_checked {α : Type} (d : Description α) :
    d.layoutEdges =
      checked d.vertexCount (firstStray? d.vertexCount (d.edges.map EdgeEntry.edge))
        (d.edges.map EdgeEntry.edge) :=
  mapM_zipIdx d.vertexCount 0 d.edges

namespace Adjacency

variable {γ : Type} [Multigraph γ]

/-- The adjacency of `count` vertices and edges that are numbered from `k`, unchecked. -/
def entered (k : Nat) (edges : List Edge) (g : γ) : γ :=
  (edges.zipIdx k).foldl (fun g (e, k) => enter e k g) g

theorem entered_cons (k : Nat) (e : Edge) (rest : List Edge) (g : γ) :
    entered k (e :: rest) g = entered (k + 1) rest (enter e k g) := by
  rw [entered, List.zipIdx_cons]
  rfl

theorem foldlM_enter (count k : Nat) (edges : List Edge) (g : γ) :
    ((edges.zipIdx k).foldlM (fun g (e, k) =>
        if e.Within count then .ok (enter e k g) else .error (.invalidEdge ⟨k⟩ e count)) g :
      Except LayoutError γ) =
      checked count (strayFrom? count k edges) (entered k edges g) := by
  induction edges generalizing k g with
  | nil => rfl
  | cons e rest ih =>
      rw [List.zipIdx_cons, List.foldlM_cons, entered_cons]
      dsimp only
      by_cases within : e.Within count
      · rw [strayFrom?_cons_of_within _ within, if_pos within]
        exact ih (k + 1) (enter e k g)
      · rw [strayFrom?_cons_of_not_within _ within, if_neg within]
        rfl

/-- An adjacency is built unless an edge is astray. -/
theorem build_eq_checked (count : Nat) (edges : List Edge) :
    (build count edges : Except LayoutError (Adjacency γ)) =
      checked count (firstStray? count edges) ⟨entered 0 edges (nodes count)⟩ := by
  rw [build, foldlM_enter]
  change Adjacency.mk <$> checked count (firstStray? count edges) _ = _
  cases firstStray? count edges with
  | none => rfl
  | some found => rfl

theorem build_ok {count : Nat} {edges : List Edge} (within : ∀ e ∈ edges, e.Within count) :
    ∃ a : Adjacency γ, build count edges = .ok a := by
  refine ⟨⟨entered 0 edges (nodes count)⟩, ?_⟩
  rw [build_eq_checked, Simulation.firstStray?_eq_none_iff.mpr within]
  rfl

/-- What is built is the graph with all edges entered, none of which is astray. -/
theorem of_build_eq_ok {count : Nat} {edges : List Edge} {a : Adjacency γ}
    (built : build count edges = .ok a) :
    (∀ e ∈ edges, e.Within count) ∧ a.graph = entered 0 edges (nodes count) := by
  rw [build_eq_checked] at built
  cases stray : firstStray? count edges with
  | some found =>
      rw [stray] at built
      cases built
  | none =>
      rw [stray] at built
      cases built
      exact ⟨Simulation.firstStray?_eq_none_iff.mp stray, rfl⟩

theorem lt_of_incident_eq_ok {a : Adjacency γ} {v : VertexId} {ids : List EdgeId}
    (answered : a.incident v = .ok ids) : v.index < a.vertexCount := by
  unfold incident nodeOf at answered
  split at answered
  · assumption
  · cases answered

end Adjacency

/-! ### The start of a simulation -/

namespace Simulation

variable {α : Type} [Scalar α]

theorem atRest_valid {positions : Array (Vec α)} {edges : List Edge}
    (within : ∀ e ∈ edges, e.Within positions.size) : (atRest positions edges).Valid where
  velocities_size := Array.size_replicate
  edges_within := within

/-- What is known of the simulation in which a described graph starts. -/
structure StartsFrom (d : Description α) (s : Simulation α) : Prop where
  valid : s.Valid
  size : s.positions.size = d.vertexCount
  edges : s.edges = d.edges.map EdgeEntry.edge

theorem startsFrom_of_ofDescription {initial : InitialLayout} {d : Description α}
    {s : Simulation α} (started : ofDescription initial d = .ok s) : StartsFrom d s := by
  rw [ofDescription, Description.layoutEdges_eq_checked] at started
  cases stray : firstStray? d.vertexCount (d.edges.map EdgeEntry.edge) with
  | some found =>
      rw [stray] at started
      cases started
  | none =>
      have within := firstStray?_eq_none_iff.mp stray
      have hints_size : d.hints.toArray.size = d.vertexCount := by
        simp [Description.hints, Description.vertexCount]
      rw [stray] at started
      cases initial with
      | hints =>
          cases started
          exact ⟨atRest_valid (by rwa [hints_size]), hints_size, rfl⟩
      | staggered =>
          cases started
          have size : ((List.range d.vertexCount).map (staggeredPlace (α := α))).toArray.size =
              d.vertexCount := by simp
          exact ⟨atRest_valid (by rwa [size]), size, rfl⟩

end Simulation

end SpringLayout
