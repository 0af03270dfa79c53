import SpringLayout.Proofs.EntryList
import SpringLayout.Proofs.HitIndex
import SpringLayout.Proofs.Session.Representation

/-!
A vertex moved by hand.

What a session answers about the edges at a vertex comes from the description that was loaded,
however long ago (`Session.Represents.built`). `Session.MovesOnly` is the frame of a move: one
vertex is displayed and hit elsewhere, and nothing else is different. Main statement:
`Session.told_drags`, which says of every reachable session when a move is taken, what is answered
and what it changes.
-/

namespace SpringLayout

/-! ### The graph of a story -/

namespace Story

variable {α : Type}

theorem exists_loaded {st : Story α} {v : VertexId} (within : v.Within st.vertexCount) :
    ∃ l, st.loaded = some l := by
  unfold vertexCount at within
  split at within
  · next l loaded => exact ⟨l, loaded⟩
  · exact absurd within (Nat.not_lt_zero _)

/-- The edges at a vertex, by the edges that were described. -/
theorem mem_edgesAt_iff {st : Story α} {l : Loaded α} (loaded : st.loaded = some l) {v : VertexId}
    {k : Nat} :
    ⟨k⟩ ∈ edgesAt 0 st.edges v ↔
      ∃ e, l.graph.edges[k]? = some e ∧ (e.edge.head = v ∨ e.edge.tail = v) := by
  rw [SpringLayout.mem_edgesAt_iff, edges, loaded, List.getElem?_map]
  simp only [Option.map_eq_some_iff]
  constructor
  · rintro ⟨_, ⟨e, described, rfl⟩, touches⟩
    exact ⟨e, described, touches⟩
  · rintro ⟨e, described, touches⟩
    exact ⟨e.edge, ⟨e, described, rfl⟩, touches⟩

end Story

namespace Session

/-! ### A move by hand -/

section Moves

variable {α γ τ : Type} [EntryTree α τ]

/-- The session `after` is `s` with the vertex `v` put at `target`, and nothing else changed. The
tree of the index is relied on for the places that are admitted. -/
structure MovesOnly (Admits : Vec α → Prop) (v : VertexId) (target : Vec α)
    (s after : Session α γ τ) : Prop where
  display_self : after.display[v.index]? = some target
  display_other : ∀ w : VertexId, w ≠ v → after.display[w.index]? = s.display[w.index]?
  index_self : EntryTree.AllAt Admits s.index.tree → Admits target →
    ⟨v, target⟩ ∈ after.index.entries
  /-- The tree may have them in another order. -/
  index_other : EntryTree.AllAt Admits s.index.tree → Admits target →
    (after.index.entries.filter (·.vertex ≠ v)).Perm (s.index.entries.filter (·.vertex ≠ v))
  config : after.config = s.config
  /-- The run, and with it the simulation, the frames shown and whether it came to rest. -/
  run : after.run = s.run
  adjacency : after.adjacency = s.adjacency
  names : after.names = s.names
  flags : after.flags = s.flags

variable [Multigraph γ] {Admits : Vec α → Prop} {s after : Session α γ τ} {v : VertexId}
  {target : Vec α}

/-- A move that is taken changes nothing else. -/
theorem movesOnly_of_ok [Scalar α] (tree : EntryTree.Sparing τ Admits) {ids : List EdgeId}
    (moves : s.moveVertex v target = (.ok ids, after)) : s.MovesOnly Admits v target after := by
  obtain ⟨-, source, displayed, rfl⟩ := moveVertex_ok moves
  have shown : v.index < s.display.size := (Array.getElem?_eq_some_iff.mp displayed).1
  constructor
  · exact Array.getElem?_setIfInBounds_self_of_lt shown
  · intro w apart
    have places : v.index ≠ w.index := fun same => apart (congrArg VertexId.mk same.symm)
    exact Array.getElem?_setIfInBounds_ne places
  · exact fun all admits => HitIndex.mem_relocate tree all admits
  · exact fun all admits => HitIndex.filter_relocate tree all admits
  · rfl
  · rfl
  · rfl
  · rfl
  · rfl

/-- A vertex whose edges are answered and that is displayed can be moved. -/
theorem moveVertex_of_answered {ids : List EdgeId} (answered : s.adjacency.incident v = .ok ids)
    (shown : v.index < s.display.size) : ∃ after, s.moveVertex v target = (.ok ids, after) := by
  rw [moveVertex, answered]
  dsimp only
  rw [Array.getElem?_eq_getElem shown]
  exact ⟨_, rfl⟩

theorem moveVertex_of_refused {e : LayoutError} (refused : s.adjacency.incident v = .error e) :
    s.moveVertex v target = (.error e, s) := by
  rw [moveVertex, refused]

end Moves

/-! ### Reachable sessions -/

section Reachable

variable {α γ τ : Type} [PolarScalar α] [Multigraph γ] [EntryTree α τ] {Admits : Vec α → Prop}

/-- What a move of `v` to `target` by hand does to the session `s`, of which `st` is told. -/
structure Drags (Admits : Vec α → Prop) (st : Story α) (v : VertexId) (target : Vec α)
    (s : Session α γ τ) : Prop where
  vertexCount : s.vertexCount = st.vertexCount
  taken_iff : (∃ ids, (s.moveVertex v target).1 = .ok ids) ↔ v.Within s.vertexCount
  /-- A move is answered with the edges that are described to have an end at the vertex, ascending
  and each once. -/
  taken : v.Within s.vertexCount → ∃ l ids after, st.loaded = some l ∧
    s.moveVertex v target = (.ok ids, after) ∧ s.MovesOnly Admits v target after ∧
      ids.Pairwise (·.index < ·.index) ∧
        ∀ k, ⟨k⟩ ∈ ids ↔ ∃ e, l.graph.edges[k]? = some e ∧ (e.edge.head = v ∨ e.edge.tail = v)
  /-- A vertex that is not there is refused, and nothing is changed. -/
  refused : ¬ v.Within s.vertexCount →
    s.moveVertex v target = (.error (.invalidVertex v st.vertexCount), s)

theorem Represents.drags {st : Story α} {s : Session α γ τ} (represents : s.Represents st)
    (graph : Multigraph.Lawful γ) (tree : EntryTree.Sparing τ Admits) (v : VertexId)
    (target : Vec α) : Drags Admits st v target s := by
  have count := represents.vertexCount graph
  have built := represents.built
  have taken : v.Within s.vertexCount →
      ∃ after, s.moveVertex v target = (.ok (edgesAt 0 st.edges v), after) := by
    intro within
    rw [count] at within
    have answered := Adjacency.incident_of_within graph built within
    exact moveVertex_of_answered answered (represents.display_size ▸ within)
  have refused : ¬ v.Within s.vertexCount →
      s.moveVertex v target = (.error (.invalidVertex v st.vertexCount), s) := by
    intro outside
    apply moveVertex_of_refused
    rw [Adjacency.incident_of_build graph built, if_neg (count ▸ outside)]
  refine ⟨count, ⟨?_, ?_⟩, ?_, refused⟩
  · rintro ⟨ids, answered⟩
    by_contra outside
    rw [refused outside] at answered
    cases answered
  · intro within
    obtain ⟨after, moves⟩ := taken within
    exact ⟨_, congrArg Prod.fst moves⟩
  · intro within
    obtain ⟨after, moves⟩ := taken within
    obtain ⟨l, loaded⟩ := Story.exists_loaded (count ▸ within)
    refine ⟨l, _, after, loaded, moves, movesOnly_of_ok tree moves, pairwise_edgesAt 0 _ v, ?_⟩
    intro k
    exact Story.mem_edgesAt_iff loaded

/-- Whatever was asked of a session, it takes a move of any of its vertices and of no other, and a
move changes where that vertex is displayed and hit, and nothing else. What is said of the index
holds in every session if the tree is sparing wherever its entries are, that is, if all places are
admitted. -/
theorem told_drags (graph : Multigraph.Lawful γ) (tree : EntryTree.Sparing τ Admits)
    (config : Config α) (commands : List (SessionCommand α)) (v : VertexId) (target : Vec α) :
    Drags Admits (told γ τ config commands).1 v target (told γ τ config commands).2 :=
  (represents_told γ τ config commands).drags graph tree v target

/-- A vertex of the last graph of a succession is moved to nowhere. -/
theorem told_drags_succession :
    let reached := told IncidenceTable (EntryList Float) .standard succession
    Multigraph.Lawful IncidenceTable ∧ EntryTree.Sparing (EntryList Float) (fun _ => True) ∧
      VertexId.Within ⟨0⟩ reached.2.vertexCount ∧
        Drags (fun _ => True) reached.1 ⟨0⟩ ⟨0 / 0, 7⟩ reached.2 := by
  intro reached
  exact ⟨IncidenceTable.lawful, EntryList.sparing _, by decide +kernel,
    told_drags IncidenceTable.lawful (EntryList.sparing _) .standard succession ⟨0⟩ ⟨0 / 0, 7⟩⟩

end Reachable

end Session

end SpringLayout
