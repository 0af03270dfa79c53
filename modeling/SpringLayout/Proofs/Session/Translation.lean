import SpringLayout.Proofs.Session.Exchange
import SpringLayout.Proofs.Simulation.Translation

/-!
Where a graph sits does not show, over exact numbers.

A description is translated by moving the hints of its vertices by one displacement, a session by
moving the vertices that its run simulates. Nothing else that a session holds is touched, neither
the display nor what can be hit. `Session.exchange_translate` is about one command and
`Session.exchanges_translate` about commands in a row: as long as graphs start at their hints,
moving the hints moves the simulations and changes nothing that is answered or displayed.
-/

namespace SpringLayout

variable (t : Vec ℝ)

/-! ### Runs -/

namespace Run

/-- The run with its vertices moved by `t`. -/
noncomputable def translate (r : Run ℝ) : Run ℝ :=
  { r with simulation := r.simulation.translate t }

theorem snapshot_translate (r : Run ℝ) : (r.translate t).snapshot = r.snapshot :=
  Viewport.normalize_translate t r.config.viewport r.simulation.positions

/-- A run shows the same frame wherever its graph sits. -/
theorem nextFrame_translate (flags : StopFlags) (r : Run ℝ) :
    (r.translate t).nextFrame flags =
      ((r.nextFrame flags).1, (r.nextFrame flags).2.translate t) := by
  have running : (r.translate t).isRunning flags = r.isRunning flags := rfl
  have row : (r.translate t).simulation.advance (r.translate t).config 0
      (r.translate t).stepsPerFrame = _ :=
    Simulation.advance_translate t r.config 0 r.stepsPerFrame r.simulation
  unfold nextFrame
  rw [running, row]
  obtain ⟨answer, after⟩ := r.simulation.advance r.config 0 r.stepsPerFrame
  split
  · cases answer with
    | error e => rfl
    | ok report =>
        dsimp only
        rw [← snapshot_translate t
          { r with simulation := after, frames := r.frames + 1, settled := report.settled }]
        rfl
  · rfl

/-- A run is finished with the same report wherever its graph sits. -/
theorem finish_translate (flags : StopFlags) (r : Run ℝ) :
    (r.translate t).finish flags = ((r.finish flags).1, (r.finish flags).2.translate t) := by
  have running : (r.translate t).isRunning flags = r.isRunning flags := rfl
  have row : (r.translate t).simulation.run (r.translate t).config = _ :=
    Simulation.advance_translate t r.config 0 r.config.maxIterations.toNat r.simulation
  unfold finish
  rw [running, row]
  unfold Simulation.run Simulation.settle
  obtain ⟨answer, after⟩ := r.simulation.advance r.config 0 r.config.maxIterations.toNat
  split
  · cases answer with
    | error e => rfl
    | ok report => rfl
  · rfl

end Run

/-! ### Descriptions -/

namespace Description

/-- The description with all hints moved by `t`. -/
noncomputable def translate (d : Description ℝ) : Description ℝ :=
  { d with vertices := d.vertices.map fun v => { v with hint := v.hint + t } }

theorem names_translate (d : Description ℝ) : (d.translate t).names = d.names :=
  List.map_map

theorem hints_translate (d : Description ℝ) : (d.translate t).hints = d.hints.map (· + t) := by
  simp only [hints, translate, List.map_map, Function.comp_def]

theorem layoutEdges_translate (d : Description ℝ) :
    (d.translate t).layoutEdges = d.layoutEdges := by
  have count : (d.translate t).vertexCount = d.vertexCount := List.length_map _
  rw [layoutEdges, layoutEdges, count]
  rfl

end Description

/-- A graph that starts at its hints starts where they are moved to. -/
theorem Simulation.ofDescription_translate (d : Description ℝ) :
    ofDescription .hints (d.translate t) = (ofDescription .hints d).map (translate t) := by
  rw [ofDescription, ofDescription, d.layoutEdges_translate, d.hints_translate]
  cases d.layoutEdges with
  | error e => rfl
  | ok edges =>
      have size : (d.hints.map (· + t)).toArray.size = d.hints.toArray.size := List.length_map _
      change Except.ok (atRest (d.hints.map (· + t)).toArray edges) =
        .ok ((atRest d.hints.toArray edges).translate t)
      rw [atRest, size, atRest, translate, List.map_toArray]

namespace Session

/-! ### Sessions -/

variable {γ τ : Type}

/-- The session with the vertices of its run moved by `t`. -/
noncomputable def translate (s : Session ℝ γ τ) : Session ℝ γ τ :=
  { s with run := s.run.map (Run.translate t) }

theorem run_translate_of_none {s : Session ℝ γ τ} (unloaded : s.run = none) :
    (s.translate t).run = none := by
  rw [translate, unloaded, Option.map_none]

theorem run_translate_of_some {s : Session ℝ γ τ} {run : Run ℝ} (loaded : s.run = some run) :
    (s.translate t).run = some (run.translate t) := by
  rw [translate, loaded, Option.map_some]

theorem cancel_translate (s : Session ℝ γ τ) : (s.translate t).cancel = s.cancel.translate t := by
  unfold cancel
  cases loaded : s.run with
  | none => rw [run_translate_of_none t loaded]
  | some run =>
      rw [run_translate_of_some t loaded]
      rfl

variable [EntryTree ℝ τ]

theorem clear_translate [Multigraph γ] (s : Session ℝ γ τ) :
    (s.translate t).clear = s.clear.translate t := by
  unfold clear
  rw [cancel_translate]
  rfl

/-- Loading a graph that starts at its hints is refused or answered alike wherever they are, and
displays its vertices at the same places. -/
theorem load_translate [Multigraph γ] (d : Description ℝ) {s : Session ℝ γ τ}
    (hints : s.config.initialLayout = .hints) :
    (s.translate t).load (d.translate t) = ((s.load d).1, (s.load d).2.translate t) := by
  have started : Simulation.ofDescription (s.translate t).config.initialLayout (d.translate t) =
      (Simulation.ofDescription s.config.initialLayout d).map (Simulation.translate t) := by
    change Simulation.ofDescription s.config.initialLayout _ = _
    rw [hints, Simulation.ofDescription_translate]
  unfold load
  rw [started]
  cases Simulation.ofDescription s.config.initialLayout d with
  | error e => rfl
  | ok simulation =>
      have count : (simulation.translate t).vertexCount = simulation.vertexCount :=
        Array.size_map
      have edges : (simulation.translate t).edges = simulation.edges := rfl
      dsimp only [Except.map]
      rw [count, edges]
      cases (Adjacency.build simulation.vertexCount simulation.edges :
          Except LayoutError (Adjacency γ)) with
      | error e => rfl
      | ok adjacency =>
          dsimp only
          rw [cancel_translate, Description.names_translate,
            ← Run.snapshot_translate t (Run.start s.config simulation _)]
          rfl

theorem carry_translate (run : Run ℝ) (places : Option (Array (Vec ℝ))) (s : Session ℝ γ τ) :
    (s.translate t).carry (run.translate t) places = (s.carry run places).translate t := by
  cases places with
  | none => rfl
  | some places => rfl

theorem reportPlaces_translate (run : Run ℝ) (answer : Except LayoutError Report) :
    reportPlaces (run.translate t) answer = reportPlaces run answer := by
  cases answer with
  | error e => rfl
  | ok report => rw [reportPlaces, reportPlaces, Run.snapshot_translate]

theorem nextFrame_translate (s : Session ℝ γ τ) :
    (s.translate t).nextFrame = (s.nextFrame.1, s.nextFrame.2.translate t) := by
  cases loaded : s.run with
  | none =>
      rw [nextFrame_of_none loaded, nextFrame_of_none (run_translate_of_none t loaded)]
  | some run =>
      have frame : (run.translate t).nextFrame (s.translate t).flags = _ :=
        run.nextFrame_translate t s.flags
      rw [nextFrame_of_some loaded, nextFrame_of_some (run_translate_of_some t loaded), frame,
        carry_translate]

theorem settle_translate (s : Session ℝ γ τ) :
    (s.translate t).settle = (s.settle.1, s.settle.2.translate t) := by
  cases loaded : s.run with
  | none => rw [settle_of_none loaded, settle_of_none (run_translate_of_none t loaded)]
  | some run =>
      have ends : (run.translate t).finish (s.translate t).flags = _ :=
        run.finish_translate t s.flags
      rw [settle_of_some loaded, settle_of_some (run_translate_of_some t loaded), ends,
        reportPlaces_translate, carry_translate]

theorem moveVertex_translate [Multigraph γ] (v : VertexId) (target : Vec ℝ) (s : Session ℝ γ τ) :
    (s.translate t).moveVertex v target =
      ((s.moveVertex v target).1, (s.moveVertex v target).2.translate t) := by
  have ids : (s.translate t).adjacency.incident v = s.adjacency.incident v := rfl
  have source : (s.translate t).display[v.index]? = s.display[v.index]? := rfl
  unfold moveVertex
  rw [ids, source]
  split
  · rfl
  · split
    · rfl
    · rfl

end Session

/-! ### Commands -/

/-- The command with the hints of a graph to load moved by `t`. -/
noncomputable def SessionCommand.translate : SessionCommand ℝ → SessionCommand ℝ
  | .load d => .load (d.translate t)
  | command => command

/-- The same answer to the command with its hints moved, from a session that is left with the same
display and with the vertices of its run moved. -/
noncomputable def Exchange.translate {γ τ : Type} (x : Exchange ℝ γ τ) : Exchange ℝ γ τ where
  command := x.command.translate t
  answer := x.answer
  left := x.left.translate t

namespace Session

variable {γ τ : Type} [Multigraph γ] [EntryTree ℝ τ]

/-- One command is answered alike wherever the graphs sit. -/
theorem exchange_translate {s : Session ℝ γ τ} (hints : s.config.initialLayout = .hints)
    (command : SessionCommand ℝ) :
    (s.translate t).exchange (command.translate t) = (s.exchange command).translate t := by
  have executed : (s.translate t).exec (command.translate t) =
      ((s.exec command).1, (s.exec command).2.translate t) := by
    cases command with
    | load d => exact congrArg (SessionAnswer.ofAttempt .loaded) (load_translate t d hints)
    | cancel => exact congrArg (Prod.mk SessionAnswer.done) (cancel_translate t s)
    | clear => exact congrArg (Prod.mk SessionAnswer.done) (clear_translate t s)
    | nextFrame => exact congrArg (SessionAnswer.ofAttempt .frame) (nextFrame_translate t s)
    | settle => exact congrArg (SessionAnswer.ofAttempt .report) (settle_translate t s)
    | moveVertex v target =>
        exact congrArg (SessionAnswer.ofAttempt .edges) (moveVertex_translate t v target s)
    | stepFlat state edges =>
        have same : (s.translate t).stepFlat edges state = s.stepFlat edges state := rfl
        change (s.translate t).exec (.stepFlat state edges) = _
        rw [exec, exec, same]
        split
        · rfl
        · rfl
    | _ => rfl
  rw [exchange, executed]
  rfl

/-- Commands in a row are answered alike wherever the graphs sit, if all start at their hints. -/
theorem exchanges_translate {s : Session ℝ γ τ} (hints : s.config.initialLayout = .hints)
    {commands : List (SessionCommand ℝ)}
    (sets : ∀ next, .setConfig next ∈ commands → next.initialLayout = .hints) :
    (s.translate t).exchanges (commands.map (SessionCommand.translate t)) =
      (s.exchanges commands).map (Exchange.translate t) := by
  induction commands generalizing s with
  | nil => rfl
  | cons command rest ih =>
      have next : (s.exchange command).left.config.initialLayout = .hints := by
        rw [config_exchange]
        cases command with
        | setConfig next => exact sets next List.mem_cons_self
        | _ => exact hints
      rw [List.map_cons, exchanges, exchange_translate t hints, exchanges, List.map_cons]
      congr 1
      apply ih next
      intro later mem
      exact sets later (List.mem_cons_of_mem _ mem)

/-- A new session does not show where the graphs sit that it is given. With all hints moved by `t`,
every command is answered the same, frames and reports included, and leaves the same display; the
positions of the simulation are those of the graph that was not moved, and `t` more. -/
theorem exchanges_new_translate {config : Config ℝ} (hints : config.initialLayout = .hints)
    {commands : List (SessionCommand ℝ)}
    (sets : ∀ next, .setConfig next ∈ commands → next.initialLayout = .hints) :
    (new config : Session ℝ γ τ).exchanges (commands.map (SessionCommand.translate t)) =
      ((new config).exchanges commands).map (Exchange.translate t) :=
  exchanges_translate t (s := new config) hints sets

/-- Two vertices joined by an edge. -/
noncomputable def segment : Description ℝ where
  vertices := [⟨"a", ⟨0, 0⟩⟩, ⟨"b", ⟨3, 4⟩⟩]
  edges := [⟨0, 1, false⟩]

theorem exchanges_new_translate_segment :
    let blank : PlainSession ℝ := new Config.standard
    (Config.standard : Config ℝ).initialLayout = .hints ∧
      (blank.exchange (.load segment)).answer = .loaded ⟨0⟩ ∧
      blank.exchanges [.load (segment.translate ⟨5, -7⟩), .nextFrame, .settle, .display] =
        (blank.exchanges [.load segment, .nextFrame, .settle, .display]).map
          (Exchange.translate ⟨5, -7⟩) := by
  intro blank
  have sets : ∀ next : Config ℝ, SessionCommand.setConfig next ∈
      [.load segment, .nextFrame, .settle, .display] → next.initialLayout = .hints := by
    intro next mem
    simp at mem
  exact ⟨rfl, rfl, exchanges_new_translate _ rfl sets⟩

end Session

end SpringLayout
