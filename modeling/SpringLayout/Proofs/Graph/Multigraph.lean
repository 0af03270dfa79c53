import SpringLayout.Graph.Multigraph

/-!
What is relied on in a multigraph.

A graph that was `MadeOf` some nodes and bonds is the empty one with these put in, in this order.
`Multigraph.Lawful` says what such a graph answers: nodes and edges are numbered in the order in
which they were put in, and at every node all edges are met that have an end there, in any order and
however often. Main statement: `IncidenceTable.lawful`.
-/

namespace SpringLayout

namespace Bond

/-- The edge has an end at node `i`. -/
abbrev Touches (e : Bond) (i : Nat) : Prop := e.first = i ∨ e.second = i

/-- The edge is between nodes `i` and `j`, one way round or the other. -/
abbrev Joins (e : Bond) (i j : Nat) : Prop :=
  e.first = i ∧ e.second = j ∨ e.first = j ∧ e.second = i

theorem joins_iff {e : Bond} {i j : Nat} : e.Joins i j ↔ e.Touches i ∧ e.across i = j := by
  unfold Joins Touches across
  by_cases first : e.first = i
  · simp only [first, if_true, true_or, true_and]
    constructor
    · rintro (same | ⟨rfl, same⟩)
      · exact same
      · exact same
    · exact Or.inl
  · simp only [first, if_false, false_or, false_and]
    exact and_comm

end Bond

namespace Multigraph

variable {γ : Type} [Multigraph γ]

/-- The graph into which the nodes and the bonds were put, in this order. -/
inductive MadeOf : List VertexId → List Bond → γ → Prop where
  | empty : MadeOf [] [] empty
  | addNode {nodes : List VertexId} {bonds : List Bond} {g : γ} (v : VertexId) :
      MadeOf nodes bonds g → MadeOf (nodes ++ [v]) bonds (addNode v g)
  | addEdge {nodes : List VertexId} {bonds : List Bond} {g : γ} (e : Bond) :
      MadeOf nodes bonds g → e.first < nodes.length → e.second < nodes.length →
      MadeOf nodes (bonds ++ [e]) (addEdge e.first e.second e.weight g)

/-- What is answered by graphs of known making. -/
structure Lawful (γ : Type) [Multigraph γ] : Prop where
  nodeCount : ∀ {nodes bonds} {g : γ}, MadeOf nodes bonds g → nodeCount g = nodes.length
  edgeCount : ∀ {nodes bonds} {g : γ}, MadeOf nodes bonds g → edgeCount g = bonds.length
  node? : ∀ {nodes bonds} {g : γ}, MadeOf nodes bonds g → ∀ i, node? i g = nodes[i]?
  ends? : ∀ {nodes bonds} {g : γ}, MadeOf nodes bonds g →
    ∀ k, ends? k g = bonds[k]?.map fun e => (e.first, e.second)
  /-- The order in which edges are met is left open, and how often each one is. -/
  mem_edgesAt_iff : ∀ {nodes bonds} {g : γ}, MadeOf nodes bonds g → ∀ i < nodes.length,
    ∀ weight, weight ∈ edgesAt i g ↔ ∃ e ∈ bonds, e.Touches i ∧ e.weight = weight
  mem_neighborsAt_iff : ∀ {nodes bonds} {g : γ}, MadeOf nodes bonds g → ∀ i < nodes.length,
    ∀ j, j ∈ neighborsAt i g ↔ ∃ e ∈ bonds, e.Joins i j

end Multigraph

namespace IncidenceTable

open Multigraph (MadeOf)

variable {nodes : List VertexId} {bonds : List Bond} {g : IncidenceTable}

/-- The table holds these nodes and bonds, and each of its rows tells which bonds are at a node. -/
structure Tabulates (nodes : List VertexId) (bonds : List Bond) (g : IncidenceTable) : Prop where
  nodes_eq : g.nodes = nodes.toArray
  bonds_eq : g.bonds = bonds.toArray
  rows : g.incidence.size = nodes.length
  within : ∀ e ∈ bonds, e.first < nodes.length ∧ e.second < nodes.length
  mem_row_iff : ∀ i < nodes.length, ∀ k,
    k ∈ g.incidence.getD i [] ↔ ∃ e, bonds[k]? = some e ∧ e.Touches i

theorem Tabulates.addNode (table : Tabulates nodes bonds g) (v : VertexId) :
    Tabulates (nodes ++ [v]) bonds (Multigraph.addNode v g) where
  nodes_eq := by
    change g.nodes.push v = _
    rw [table.nodes_eq, List.push_toArray]
  bonds_eq := table.bonds_eq
  rows := by
    change (g.incidence.push []).size = _
    rw [Array.size_push, table.rows, List.length_append, List.length_singleton]
  within e mem := by
    have inside := table.within e mem
    simp only [List.length_append, List.length_singleton]
    omega
  mem_row_iff i inside k := by
    change k ∈ (g.incidence.push []).getD i [] ↔ _
    rw [Array.getD_eq_getD_getElem?, Array.getElem?_push, table.rows]
    rw [List.length_append, List.length_singleton] at inside
    by_cases last : i = nodes.length
    · -- the row of the new node is empty, and no bond so far has an end there
      subst last
      rw [if_pos rfl]
      refine iff_of_false List.not_mem_nil ?_
      rintro ⟨e, found, touches⟩
      have ends := table.within e (List.mem_of_getElem? found)
      omega
    · rw [if_neg last, ← Array.getD_eq_getD_getElem?]
      exact table.mem_row_iff i (by omega) k

/-- With one more edge its number is in the rows of its ends besides. -/
theorem mem_row_addBond_iff {e : Bond} {i k : Nat} (inside : i < g.incidence.size) :
    k ∈ (g.addBond e).incidence.getD i [] ↔
      k ∈ g.incidence.getD i [] ∨ k = g.bonds.size ∧ e.Touches i := by
  change k ∈ Array.getD ((g.incidence.modify e.first (g.bonds.size :: ·)).modify e.second
    (g.bonds.size :: ·)) i [] ↔ _
  simp only [Array.getD_eq_getD_getElem?, Array.getElem?_modify,
    Array.getElem?_eq_getElem inside, Bond.Touches]
  by_cases second : e.second = i
  · by_cases first : e.first = i
    · simp [first, second, or_comm]
    · simp [first, second, or_comm]
  · by_cases first : e.first = i
    · simp [first, second, or_comm]
    · simp [first, second]

theorem Tabulates.addBond (table : Tabulates nodes bonds g) {e : Bond}
    (first : e.first < nodes.length) (second : e.second < nodes.length) :
    Tabulates nodes (bonds ++ [e]) (g.addBond e) where
  nodes_eq := table.nodes_eq
  bonds_eq := by
    change g.bonds.push e = _
    rw [table.bonds_eq, List.push_toArray]
  rows := by
    change ((g.incidence.modify e.first _).modify e.second _).size = _
    rw [Array.size_modify, Array.size_modify, table.rows]
  within f mem := by
    rcases List.mem_append.mp mem with earlier | last
    · exact table.within f earlier
    · cases List.mem_singleton.mp last
      exact ⟨first, second⟩
  mem_row_iff i inside k := by
    rw [mem_row_addBond_iff (table.rows ▸ inside), table.mem_row_iff i inside k, table.bonds_eq,
      List.size_toArray]
    constructor
    · rintro (⟨f, found, touches⟩ | ⟨rfl, touches⟩)
      · have earlier := (List.getElem?_eq_some_iff.mp found).1
        exact ⟨f, by rwa [List.getElem?_append_left earlier], touches⟩
      · exact ⟨e, by simp, touches⟩
    · rintro ⟨f, found, touches⟩
      by_cases earlier : k < bonds.length
      · exact .inl ⟨f, by rwa [List.getElem?_append_left earlier] at found, touches⟩
      · right
        rw [List.getElem?_append_right (by omega), List.getElem?_singleton] at found
        split at found
        · cases found
          exact ⟨by omega, touches⟩
        · cases found

theorem tabulates_of_madeOf (made : MadeOf nodes bonds g) : Tabulates nodes bonds g := by
  induction made with
  | empty => exact ⟨rfl, rfl, rfl, nofun, nofun⟩
  | addNode v made ih => exact ih.addNode v
  | addEdge e made first second ih => exact ih.addBond first second

theorem Tabulates.mem_bondsAt_iff (table : Tabulates nodes bonds g) {i : Nat}
    (inside : i < nodes.length) {e : Bond} : e ∈ g.bondsAt i ↔ e ∈ bonds ∧ e.Touches i := by
  simp only [bondsAt, List.mem_filterMap, table.mem_row_iff i inside, table.bonds_eq,
    List.getElem?_toArray]
  constructor
  · rintro ⟨k, ⟨f, found, touches⟩, same⟩
    cases found.symm.trans same
    exact ⟨List.mem_of_getElem? found, touches⟩
  · rintro ⟨mem, touches⟩
    obtain ⟨k, found⟩ := List.getElem?_of_mem mem
    exact ⟨k, ⟨e, found, touches⟩, found⟩

/-- A table answers for what was put into it. -/
theorem lawful : Multigraph.Lawful IncidenceTable where
  nodeCount made := by
    change Array.size _ = _
    rw [(tabulates_of_madeOf made).nodes_eq, List.size_toArray]
  edgeCount made := by
    change Array.size _ = _
    rw [(tabulates_of_madeOf made).bonds_eq, List.size_toArray]
  node? {nodes bonds g} made i := by
    change g.nodes[i]? = _
    rw [(tabulates_of_madeOf made).nodes_eq, List.getElem?_toArray]
  ends? {nodes bonds g} made k := by
    change g.bonds[k]?.map _ = _
    rw [(tabulates_of_madeOf made).bonds_eq, List.getElem?_toArray]
  mem_edgesAt_iff {nodes bonds g} made i inside weight := by
    change weight ∈ (g.bondsAt i).map Bond.weight ↔ _
    simp only [List.mem_map, (tabulates_of_madeOf made).mem_bondsAt_iff inside, and_assoc]
  mem_neighborsAt_iff {nodes bonds g} made i inside j := by
    change j ∈ (g.bondsAt i).map (Bond.across · i) ↔ _
    simp only [List.mem_map, (tabulates_of_madeOf made).mem_bondsAt_iff inside, and_assoc,
      Bond.joins_iff]

end IncidenceTable

end SpringLayout
