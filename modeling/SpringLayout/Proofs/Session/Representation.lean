import SpringLayout.Proofs.Graph.Incidence
import SpringLayout.Proofs.Session.Story
import SpringLayout.Scalar.Binary64

/-!
The parts of a session stay in step.

A session without a graph is empty in all its parts (`Session.Blank`); one with a graph holds in all
of them what its description says (`Session.Holds`). `Session.represents_told` says that every
reachable session is one or the other, as its story tells. Main statement: `Session.told_inStep`, by
which frames and settling are refused only for want of a graph, and, if the multigraph is lawful,
the vertices and edges are answered that were described, and a vertex whose edges are answered is
displayed.
-/

namespace SpringLayout

namespace Session

section Parts

variable {α γ τ : Type} [Multigraph γ] {s : Session α γ τ}

/-- No graph is loaded, and no part of the session has anything of one. -/
structure Blank (s : Session α γ τ) : Prop where
  unloaded : s.run = none
  adjacency : s.adjacency = Adjacency.empty
  names : s.names = #[]
  display : s.display = #[]

/-- The graph that was loaded is laid out by `run`, and all parts of the session are of that
graph. -/
structure Holds (l : Loaded α) (run : Run α) (s : Session α γ τ) : Prop where
  loaded : s.run = some run
  config : run.config = l.config
  edges : run.simulation.edges = l.graph.edges.map EdgeEntry.edge
  edges_within : ∀ e ∈ run.simulation.edges, e.Within l.graph.vertexCount
  /-- Who touches what is built from the description. -/
  adjacency : Adjacency.build l.graph.vertexCount (l.graph.edges.map EdgeEntry.edge) =
    .ok s.adjacency
  positions_size : run.simulation.positions.size = l.graph.vertexCount
  velocities_size : run.simulation.velocities.size = l.graph.vertexCount
  display_size : s.display.size = l.graph.vertexCount
  names : s.names = l.graph.names.toArray

/-- The session is in the state that its story tells of. -/
def Represents (s : Session α γ τ) (st : Story α) : Prop :=
  s.config = st.config ∧
    match st.loaded with
    | none => s.Blank
    | some l => ∃ run, s.Holds l run

theorem Holds.valid {l : Loaded α} {run : Run α} (holds : s.Holds l run) :
    run.simulation.Valid where
  velocities_size := holds.velocities_size.trans holds.positions_size.symm
  edges_within := by
    rw [holds.positions_size]
    exact holds.edges_within

theorem Represents.blank_or_holds {st : Story α} (represents : s.Represents st) :
    st.loaded = none ∧ s.Blank ∨ ∃ l run, st.loaded = some l ∧ s.Holds l run := by
  obtain ⟨-, parts⟩ := represents
  cases told : st.loaded with
  | none =>
      rw [told] at parts
      exact Or.inl ⟨rfl, parts⟩
  | some l =>
      rw [told] at parts
      obtain ⟨run, holds⟩ := parts
      exact Or.inr ⟨l, run, rfl, holds⟩

theorem Represents.runValid {st : Story α} (represents : s.Represents st) : s.RunValid := by
  intro run loaded
  rcases represents.blank_or_holds with ⟨-, blank⟩ | ⟨l, run', -, holds⟩
  · rw [blank.unloaded] at loaded
    cases loaded
  · rw [holds.loaded] at loaded
    cases loaded
    exact holds.valid

theorem Represents.run_eq_none_iff {st : Story α} (represents : s.Represents st) :
    s.run = none ↔ st.loaded = none := by
  rcases represents.blank_or_holds with ⟨told, blank⟩ | ⟨l, run, told, holds⟩
  · simp [told, blank.unloaded]
  · simp [told, holds.loaded]

theorem Represents.display_size {st : Story α} (represents : s.Represents st) :
    s.display.size = st.vertexCount := by
  rcases represents.blank_or_holds with ⟨told, blank⟩ | ⟨l, run, told, holds⟩
  · simp [Story.vertexCount, told, blank.display]
  · simp [Story.vertexCount, told, holds.display_size]

theorem Represents.names_size {st : Story α} (represents : s.Represents st) :
    s.names.size = st.vertexCount := by
  rcases represents.blank_or_holds with ⟨told, blank⟩ | ⟨l, run, told, holds⟩
  · simp [Story.vertexCount, told, blank.names]
  · simp [Story.vertexCount, told, holds.names, Description.names, Description.vertexCount]

/-- Who touches what in the session is built from the description that was loaded. -/
theorem Represents.built {st : Story α} (represents : s.Represents st) :
    Adjacency.build st.vertexCount st.edges = .ok s.adjacency := by
  rcases represents.blank_or_holds with ⟨told, blank⟩ | ⟨l, run, told, holds⟩
  · rw [Story.vertexCount, Story.edges, told, blank.adjacency]
    rfl
  · rw [Story.vertexCount, Story.edges, told]
    exact holds.adjacency

theorem Represents.vertexCount (lawful : Multigraph.Lawful γ) {st : Story α}
    (represents : s.Represents st) : s.vertexCount = st.vertexCount :=
  Adjacency.vertexCount_of_build lawful represents.built

theorem blank_new [EntryTree α τ] (config : Config α) :
    (new config : Session α γ τ).Blank :=
  ⟨rfl, rfl, rfl, rfl⟩

theorem Holds.move [EntryTree α τ] {l : Loaded α} {run : Run α} (holds : s.Holds l run)
    {v : VertexId} {target : Vec α} {ids : List EdgeId} {after : Session α γ τ}
    (moves : s.moveVertex v target = (.ok ids, after)) (moves' : List (VertexId × Vec α)) :
    after.Holds { l with moves := moves' } run := by
  obtain ⟨-, source, -, rfl⟩ := moveVertex_ok moves
  exact { holds with display_size := Array.size_setIfInBounds.trans holds.display_size }

end Parts

variable {α γ τ : Type} [PolarScalar α] [Multigraph γ] [EntryTree α τ] {s : Session α γ τ}

/-! ### What a turn leaves in step -/

theorem holds_load {d : Description α} {flag : StopFlag} {after : Session α γ τ}
    (loads : s.load d = (.ok flag, after)) : ∃ run, after.Holds ⟨d, s.config, []⟩ run := by
  obtain ⟨simulation, adjacency, started, built, -, rfl⟩ := load_ok loads
  have starts := Simulation.startsFrom_of_ofDescription started
  rw [Simulation.vertexCount, starts.size, starts.edges] at built
  refine ⟨Run.start s.config simulation flag, rfl, rfl, starts.edges, ?_, built, starts.size, ?_,
    ?_, rfl⟩
  · rw [← starts.size]
    exact starts.valid.edges_within
  · exact starts.valid.velocities_size.trans starts.size
  · exact (Viewport.size_normalize _ _).trans starts.size

/-- Steps and their showing leave all parts of the session of the same graph. -/
theorem Holds.showRun {l : Loaded α} {run : Run α} (holds : s.Holds l run) (steps : Nat)
    (settled : Bool) (frames : UInt32) (moves : List (VertexId × Vec α)) :
    (s.showRun { run.moved steps settled with frames := frames }).Holds { l with moves := moves }
      { run.moved steps settled with frames := frames } := by
  have edges := Simulation.edges_stepped run.config run.simulation steps
  have size := (Simulation.positions_size_stepped run.config run.simulation steps).trans
    holds.positions_size
  have valid := holds.valid.stepped run.config steps
  refine ⟨rfl, holds.config, edges.trans holds.edges, ?_, holds.adjacency, size, ?_, ?_,
    holds.names⟩
  · intro e mem
    exact holds.edges_within e (edges ▸ mem)
  · exact valid.velocities_size.trans size
  · exact (Viewport.size_normalize _ _).trans size

/-- No turn brings a session out of the state that its story tells of. -/
theorem Represents.turn {st : Story α} {h : Happening α} {after : Session α γ τ}
    (turn : Turn s h after) (represents : s.Represents st) : after.Represents (st.next h) := by
  obtain ⟨config, loaded⟩ := st
  obtain ⟨same, parts⟩ := represents
  cases turn with
  | idle => exact ⟨same, parts⟩
  | raise flag =>
      cases loaded with
      | none => exact ⟨same, { parts with }⟩
      | some l =>
          obtain ⟨run, holds⟩ := parts
          exact ⟨same, run, { holds with }⟩
  | configure later =>
      cases loaded with
      | none => exact ⟨rfl, { parts with }⟩
      | some l =>
          obtain ⟨run, holds⟩ := parts
          exact ⟨rfl, run, { holds with }⟩
  | load loads =>
      cases same
      refine ⟨?_, holds_load loads⟩
      obtain ⟨simulation, adjacency, -, -, -, rfl⟩ := load_ok loads
      rfl
  | clear =>
      refine ⟨?_, rfl, rfl, rfl, rfl⟩
      change s.cancel.config = config
      unfold cancel
      split
      · exact same
      · exact same
  | advance frames ran running pos row =>
      cases loaded with
      | none => exact absurd ran (by simp [parts.unloaded])
      | some l =>
          obtain ⟨run, holds⟩ := parts
          cases holds.loaded.symm.trans ran
          exact ⟨same, _, holds.showRun _ _ _ []⟩
  | @move v target ids after moves =>
      obtain ⟨incident, source, displayed, rfl⟩ := moveVertex_ok moves
      cases loaded with
      | none =>
          rw [parts.display] at displayed
          cases displayed
      | some l =>
          obtain ⟨run, holds⟩ := parts
          exact ⟨same, run, holds.move moves _⟩

/-! ### Reachable sessions -/

variable (γ τ) in
theorem represents_told (config : Config α) (commands : List (SessionCommand α)) :
    (told γ τ config commands).2.Represents (told γ τ config commands).1 :=
  told_keeps (P := fun st s => s.Represents st) ⟨rfl, blank_new config⟩ Represents.turn commands

/-- What holds of a new session holds of every reachable session, if no turn breaks it while the
session is in the state that its story tells of. -/
theorem told_keeps_represented {P : Story α → Session α γ τ → Prop} {config : Config α}
    (opening : P (.opening config) (new config))
    (kept : ∀ {st s h s'}, Turn s h s' → s.Represents st → P st s → P (st.next h) s')
    (commands : List (SessionCommand α)) :
    P (told γ τ config commands).1 (told γ τ config commands).2 := by
  have both : (told γ τ config commands).2.Represents (told γ τ config commands).1 ∧
      P (told γ τ config commands).1 (told γ τ config commands).2 := by
    refine told_keeps (P := fun st s => s.Represents st ∧ P st s) ?_ ?_ commands
    · exact ⟨⟨rfl, blank_new config⟩, opening⟩
    · rintro st s h after turn ⟨represents, holds⟩
      exact ⟨represents.turn turn, kept turn represents holds⟩
  exact both.2

/-- The session is as its story tells, and what rests on that. -/
structure InStep (st : Story α) (s : Session α γ τ) : Prop where
  represents : s.Represents st
  /-- There are as many vertices and edges as were described, and none where no graph is loaded. -/
  vertexCount : s.vertexCount = st.vertexCount
  edgeCount : s.edgeCount = st.edges.length
  /-- Every edge is answered as it was described. -/
  edge? : ∀ k, s.adjacency.edge? ⟨k⟩ = st.edges[k]?
  nextFrame_refused_iff : ∀ e, s.nextFrame.1 = .error e ↔ st.loaded = none ∧ e = .noGraph
  settle_refused_iff : ∀ e, s.settle.1 = .error e ↔ st.loaded = none ∧ e = .noGraph
  /-- Where the edges at a vertex are answered, the vertex is displayed. -/
  display_reaches : ∀ v ids, s.adjacency.incident v = .ok ids → v.index < s.display.size
  named_iff : ∀ v, (s.name? v).isSome = true ↔ v.index < s.vertexCount

/-- Every reachable session is as its story tells. -/
theorem told_inStep (graph : Multigraph.Lawful γ) (config : Config α)
    (commands : List (SessionCommand α)) :
    InStep (told γ τ config commands).1 (told γ τ config commands).2 := by
  have represents := represents_told γ τ config commands
  have count := represents.vertexCount graph
  refine ⟨represents, count, Adjacency.edgeCount_of_build graph represents.built, ?_, ?_, ?_, ?_,
    ?_⟩
  · intro k
    exact Adjacency.edge?_of_build graph represents.built ⟨k⟩
  · intro e
    rw [nextFrame_eq_error_iff represents.runValid, represents.run_eq_none_iff]
  · intro e
    rw [settle_eq_error_iff represents.runValid, represents.run_eq_none_iff]
  · intro v ids answered
    rw [represents.display_size, ← count]
    exact Adjacency.lt_of_incident_eq_ok answered
  · intro v
    rw [count, ← represents.names_size, name?]
    simp

/-- One graph after another, the last of which is refused. -/
def succession : List (SessionCommand Float) :=
  [.load ⟨[⟨"a", ⟨3, 4⟩⟩], [⟨0, 0, false⟩]⟩, .settle,
    .load ⟨[⟨"b", ⟨0, 0⟩⟩, ⟨"c", ⟨3, 4⟩⟩], [⟨1, 0, false⟩, ⟨0, 1, true⟩]⟩,
    .load ⟨[⟨"d", ⟨0, 0⟩⟩], [⟨0, 1, false⟩]⟩]

theorem told_inStep_succession :
    let reached := told IncidenceTable (EntryList Float) .standard succession
    Multigraph.Lawful IncidenceTable ∧ InStep reached.1 reached.2 ∧
      reached.2.vertexCount = 2 ∧ reached.2.edgeCount = 2 ∧ reached.2.name? ⟨1⟩ = some "c" := by
  intro reached
  exact ⟨IncidenceTable.lawful, told_inStep IncidenceTable.lawful .standard succession,
    by decide +kernel, by decide +kernel, by decide +kernel⟩

end Session

end SpringLayout
