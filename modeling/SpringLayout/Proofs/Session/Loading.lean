import SpringLayout.Proofs.Graph.Checks
import SpringLayout.Proofs.Session.Operations

/-!
When a graph is loaded.

A description is refused for its first edge that is astray (`Description.FirstAstray`), and for
nothing else: `Session.load_cases`. What it is checked against is in the description alone, so no
session and no configuration has a say in it (`Session.load_ok_iff`).
-/

namespace SpringLayout

open Simulation (firstStray?)

/-! ### The first edge astray -/

section Checks

variable {α : Type} {d : Description α}

/-- Edge number `k` of the description is `entry`, and the first with an end past the last
vertex. -/
structure Description.FirstAstray (d : Description α) (k : Nat) (entry : EdgeEntry) : Prop where
  entry? : d.edges[k]? = some entry
  astray : ¬ entry.edge.Within d.vertexCount
  before : ∀ earlier ∈ d.edges.take k, earlier.edge.Within d.vertexCount

/-- All edges of the description are between its vertices. -/
def Description.EdgesWithin (d : Description α) : Prop :=
  ∀ entry ∈ d.edges, entry.edge.Within d.vertexCount

theorem Description.FirstAstray.not_edgesWithin {k : Nat} {entry : EdgeEntry}
    (first : d.FirstAstray k entry) : ¬ d.EdgesWithin :=
  fun within => first.astray (within entry (List.mem_of_getElem? first.entry?))

/-- Only one edge is the first astray. -/
theorem Description.FirstAstray.unique {k k' : Nat} {entry entry' : EdgeEntry}
    (first : d.FirstAstray k entry) (first' : d.FirstAstray k' entry') :
    k = k' ∧ entry = entry' := by
  have notLater : ∀ {i j : Nat} {e f : EdgeEntry},
      d.FirstAstray i e → d.FirstAstray j f → ¬ i < j := by
    intro i j e f one other less
    refine one.astray (other.before e ?_)
    rw [List.mem_take_iff_getElem]
    obtain ⟨bound, rfl⟩ := List.getElem?_eq_some_iff.mp one.entry?
    exact ⟨i, by omega, rfl⟩
  obtain rfl : k = k' := by
    have := notLater first first'
    have := notLater first' first
    omega
  exact ⟨rfl, Option.some.inj (first.entry?.symm.trans first'.entry?)⟩

/-- The check finds no edge astray, or the first. -/
theorem Description.edgesWithin_or_firstAstray (d : Description α) :
    d.EdgesWithin ∧ firstStray? d.vertexCount (d.edges.map EdgeEntry.edge) = none ∨
      ∃ k entry, d.FirstAstray k entry ∧
        firstStray? d.vertexCount (d.edges.map EdgeEntry.edge) = some (entry.edge, k) := by
  cases stray : firstStray? d.vertexCount (d.edges.map EdgeEntry.edge) with
  | none =>
      rw [Simulation.firstStray?_eq_none_iff] at stray
      exact Or.inl ⟨fun entry mem => stray entry.edge (List.mem_map_of_mem mem), rfl⟩
  | some found =>
      obtain ⟨e, k⟩ := found
      obtain ⟨listed, astray, before⟩ := Simulation.firstStray?_eq_some stray
      rw [List.getElem?_map, Option.map_eq_some_iff] at listed
      obtain ⟨entry, listed, rfl⟩ := listed
      rw [← List.map_take, List.forall_mem_map] at before
      exact Or.inr ⟨k, entry, ⟨listed, astray, before⟩, rfl⟩

end Checks

/-! ### Starting a graph -/

section Loading

variable {α γ τ : Type} [Scalar α] {d : Description α} [Multigraph γ]

variable (γ) in
/-- A description starts a simulation, whose edges can then be entered, unless one is astray. -/
theorem Simulation.ofDescription_cases (initial : InitialLayout) (d : Description α) :
    (∃ k entry, d.FirstAstray k entry ∧
      ofDescription initial d = .error (.invalidEdge ⟨k⟩ entry.edge d.vertexCount)) ∨
    d.EdgesWithin ∧ ∃ (simulation : Simulation α) (adjacency : Adjacency γ),
      ofDescription initial d = .ok simulation ∧
      Adjacency.build simulation.vertexCount simulation.edges = .ok adjacency := by
  rcases d.edgesWithin_or_firstAstray with ⟨within, none⟩ | ⟨k, entry, first, some⟩
  · obtain ⟨simulation, started⟩ : ∃ simulation, ofDescription initial d = .ok simulation := by
      rw [ofDescription, Description.layoutEdges_eq_checked, none]
      exact ⟨_, rfl⟩
    obtain ⟨adjacency, built⟩ :=
      Adjacency.build_ok (γ := γ) (startsFrom_of_ofDescription started).valid.edges_within
    exact Or.inr ⟨within, simulation, adjacency, started, built⟩
  · refine Or.inl ⟨k, entry, first, ?_⟩
    rw [ofDescription, Description.layoutEdges_eq_checked, some]
    rfl

variable [EntryTree α τ]

/-- A graph is refused for its first edge that is astray, or loaded because it has none. -/
theorem Session.load_cases (s : Session α γ τ) (d : Description α) :
    (∃ k entry, d.FirstAstray k entry ∧
      s.load d = (.error (.invalidEdge ⟨k⟩ entry.edge d.vertexCount), s)) ∨
    d.EdgesWithin ∧ ∃ flag after, s.load d = (.ok flag, after) := by
  rcases Simulation.ofDescription_cases γ s.config.initialLayout d with
    ⟨k, entry, first, refused⟩ | ⟨within, simulation, adjacency, started, built⟩
  · refine Or.inl ⟨k, entry, first, ?_⟩
    rw [load, refused]
  · refine Or.inr ⟨within, ?_⟩
    rw [load, started]
    dsimp only
    rw [built]
    exact ⟨_, _, rfl⟩

/-- No session loads what another refuses. -/
theorem Session.load_ok_iff {s : Session α γ τ} :
    (∃ flag after, s.load d = (.ok flag, after)) ↔ d.EdgesWithin := by
  rcases s.load_cases d with ⟨k, entry, first, refused⟩ | ⟨within, loads⟩
  · rw [refused]
    refine iff_of_false ?_ first.not_edgesWithin
    rintro ⟨flag, after, ⟨⟩⟩
  · exact iff_of_true loads within

end Loading

end SpringLayout
