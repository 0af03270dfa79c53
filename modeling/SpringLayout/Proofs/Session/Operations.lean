import SpringLayout.Proofs.Run.Motion
import SpringLayout.Session.Command

/-!
What each operation of a session does.

An operation that may be refused either is refused and leaves the session as it is, or does what its
`…_ok` statement says. Where the run of the loaded graph has a valid simulation
(`Session.RunValid`), frames and settling are refused only where no graph is loaded. Frames,
settling and moves by hand leave everything alone but the state of the run and the places
(`Session.SameSetup`).
-/

namespace SpringLayout

namespace Session

section Loading

variable {α γ τ : Type} [Scalar α] [Multigraph γ] [EntryTree α τ]

theorem load_refused_or_ok (d : Description α) (s : Session α γ τ) :
    (∃ e, s.load d = (.error e, s)) ∨ ∃ flag after, s.load d = (.ok flag, after) := by
  unfold load
  split
  · exact Or.inl ⟨_, rfl⟩
  · split
    · exact Or.inl ⟨_, rfl⟩
    · exact Or.inr ⟨_, _, rfl⟩

theorem load_ok {d : Description α} {s after : Session α γ τ} {flag : StopFlag}
    (loads : s.load d = (.ok flag, after)) :
    ∃ simulation adjacency,
      Simulation.ofDescription s.config.initialLayout d = .ok simulation ∧
        Adjacency.build simulation.vertexCount simulation.edges = .ok adjacency ∧
          flag = s.cancel.flags.issue.1 ∧
            after =
              { s with
                run := some (Run.start s.config simulation flag)
                adjacency := adjacency
                names := d.names.toArray
                flags := s.cancel.flags.issue.2 }.publish
                  (Run.start s.config simulation flag).snapshot := by
  unfold load at loads
  split at loads
  · cases loads
  · split at loads
    · cases loads
    · cases loads
      exact ⟨_, _, ‹_›, ‹_›, rfl, rfl⟩

end Loading

section Moves

variable {α γ τ : Type} [Multigraph γ] [EntryTree α τ]

theorem moveVertex_refused_or_ok (v : VertexId) (target : Vec α) (s : Session α γ τ) :
    (∃ e, s.moveVertex v target = (.error e, s)) ∨
      ∃ ids after, s.moveVertex v target = (.ok ids, after) := by
  unfold moveVertex
  split
  · exact Or.inl ⟨_, rfl⟩
  · split
    · exact Or.inl ⟨_, rfl⟩
    · exact Or.inr ⟨_, _, rfl⟩

theorem moveVertex_ok {v : VertexId} {target : Vec α} {s after : Session α γ τ} {ids : List EdgeId}
    (moves : s.moveVertex v target = (.ok ids, after)) :
    s.adjacency.incident v = .ok ids ∧
      ∃ source, s.display[v.index]? = some source ∧
        after =
          { s with
            display := s.display.setIfInBounds v.index target
            index := (s.index.relocate v source target).2 } := by
  unfold moveVertex at moves
  split at moves
  · cases moves
  · split at moves
    · cases moves
    · cases moves
      exact ⟨‹_›, _, ‹_›, rfl⟩

end Moves

section Motion

variable {α γ τ : Type} [PolarScalar α] [EntryTree α τ] {s : Session α γ τ} {run : Run α}

/-- The run of the loaded graph has a valid simulation. -/
def RunValid {α γ τ : Type} (s : Session α γ τ) : Prop :=
  ∀ run, s.run = some run → run.simulation.Valid

/-- The run is in a new state, which is shown. -/
def showRun {α γ τ : Type} [Scalar α] [EntryTree α τ] (run : Run α) (s : Session α γ τ) :
    Session α γ τ :=
  { s with run := some run }.publish run.snapshot

theorem with_run_eq {α γ τ : Type} {s : Session α γ τ} {run : Run α} (loaded : s.run = some run) :
    { s with run := some run } = s := by
  rw [← loaded]

theorem nextFrame_of_none (unloaded : s.run = none) : s.nextFrame = (.error .noGraph, s) := by
  unfold nextFrame
  rw [unloaded]

theorem nextFrame_of_over (loaded : s.run = some run) (ended : run.isRunning s.flags = false) :
    s.nextFrame = (.ok none, s) := by
  unfold nextFrame
  rw [loaded]
  dsimp only
  rw [Run.nextFrame_of_over ended]
  exact congrArg _ (with_run_eq loaded)

theorem nextFrame_of_running (valid : s.RunValid) (loaded : s.run = some run)
    (running : run.isRunning s.flags = true) :
    ∃ steps settled,
      s.nextFrame =
        (.ok (some ⟨(run.moved steps settled).snapshot, settled, steps⟩),
          s.showRun { run.moved steps settled with frames := run.frames + 1 }) ∧
        Simulation.Advance run.config run.simulation run.stepsPerFrame steps settled := by
  obtain ⟨steps, settled, shows, advance⟩ := Run.nextFrame_of_running running (valid run loaded)
  refine ⟨steps, settled, ?_, advance⟩
  unfold nextFrame
  rw [loaded]
  dsimp only
  rw [shows]
  rfl

theorem settle_of_none (unloaded : s.run = none) : s.settle = (.error .noGraph, s) := by
  unfold settle
  rw [unloaded]

theorem settle_of_over (loaded : s.run = some run) (ended : run.isRunning s.flags = false) :
    s.settle = (.ok ⟨0, run.settled⟩, s) := by
  unfold settle
  rw [loaded]
  dsimp only
  rw [Run.finish_of_over ended]
  exact congrArg _ (with_run_eq loaded)

/-- Settling without a step leaves the run as it is. -/
theorem settle_of_running (valid : s.RunValid) (loaded : s.run = some run)
    (running : run.isRunning s.flags = true) :
    ∃ steps settled,
      s.settle =
        (.ok ⟨steps, settled⟩, if 0 < steps then s.showRun (run.moved steps settled) else s) ∧
        Simulation.Advance run.config run.simulation run.config.maxIterations.toNat steps
          settled := by
  obtain ⟨steps, settled, ends, advance⟩ := Run.finish_of_running running (valid run loaded)
  refine ⟨steps, settled, ?_, advance⟩
  unfold settle
  rw [loaded]
  dsimp only
  rw [ends]
  cases steps with
  | zero =>
      rw [Run.moved_zero running advance]
      exact congrArg _ (with_run_eq loaded)
  | succ steps => rfl

/-- The run is in a new state, and new places are displayed where there are any. -/
def carry {α γ τ : Type} [EntryTree α τ] (run : Run α) (places : Option (Array (Vec α)))
    (s : Session α γ τ) : Session α γ τ :=
  match places with
  | none => { s with run := some run }
  | some places => { s with run := some run }.publish places

/-- The places that a frame shows, if one was answered. -/
def framePlaces {α : Type} : Except LayoutError (Option (Frame α)) → Option (Array (Vec α))
  | .ok (some frame) => some frame.positions
  | _ => none

/-- The places that `run` is shown at when it was finished, if it moved for that. -/
def reportPlaces (run : Run α) : Except LayoutError Report → Option (Array (Vec α))
  | .ok report => if 0 < report.iterations then some run.snapshot else none
  | .error _ => none

/-- The next frame of a session is that of its run. -/
theorem nextFrame_of_some (loaded : s.run = some run) :
    s.nextFrame =
      ((run.nextFrame s.flags).1,
        s.carry (run.nextFrame s.flags).2 (framePlaces (run.nextFrame s.flags).1)) := by
  unfold nextFrame
  rw [loaded]
  dsimp only
  obtain ⟨answer, after⟩ := run.nextFrame s.flags
  rcases answer with e | shown
  · rfl
  · cases shown with
    | none => rfl
    | some frame => rfl

/-- A session is settled by finishing its run. -/
theorem settle_of_some (loaded : s.run = some run) :
    s.settle =
      ((run.finish s.flags).1,
        s.carry (run.finish s.flags).2
          (reportPlaces (run.finish s.flags).2 (run.finish s.flags).1)) := by
  unfold settle
  rw [loaded]
  dsimp only
  obtain ⟨answer, after⟩ := run.finish s.flags
  rcases answer with e | report
  · rfl
  · by_cases moves : 0 < report.iterations
    · simp only [carry, reportPlaces, if_pos moves]
    · simp only [carry, reportPlaces, if_neg moves]

/-- A frame is refused only for want of a graph. -/
theorem nextFrame_eq_error_iff (valid : s.RunValid) (e : LayoutError) :
    s.nextFrame.1 = .error e ↔ s.run = none ∧ e = .noGraph := by
  cases loaded : s.run with
  | none =>
      rw [nextFrame_of_none loaded]
      simp [eq_comm]
  | some run =>
      cases running : run.isRunning s.flags with
      | false => simp [nextFrame_of_over loaded running]
      | true =>
          obtain ⟨steps, settled, shows, -⟩ := nextFrame_of_running valid loaded running
          simp [shows]

/-- Settling is refused only for want of a graph. -/
theorem settle_eq_error_iff (valid : s.RunValid) (e : LayoutError) :
    s.settle.1 = .error e ↔ s.run = none ∧ e = .noGraph := by
  cases loaded : s.run with
  | none =>
      rw [settle_of_none loaded]
      simp [eq_comm]
  | some run =>
      cases running : run.isRunning s.flags with
      | false => simp [settle_of_over loaded running]
      | true =>
          obtain ⟨steps, settled, ends, -⟩ := settle_of_running valid loaded running
          simp [ends]

end Motion

/-! ### What motion leaves alone -/

section Setup

variable {α γ τ : Type} {s t u : Session α γ τ}

/-- The same flags are issued and raised, and the loaded graph has the same one. -/
structure SameFlags (s t : Session α γ τ) : Prop where
  flags : t.flags = s.flags
  flag : t.run.map Run.flag = s.run.map Run.flag

/-- The same graph is loaded, under the same configuration for graphs to come: at most the state of
its run and the places of its vertices are different. -/
structure SameSetup (s t : Session α γ τ) : Prop extends s.SameFlags t where
  config : t.config = s.config
  adjacency : t.adjacency = s.adjacency
  names : t.names = s.names

protected theorem SameSetup.refl (s : Session α γ τ) : s.SameSetup s := ⟨⟨rfl, rfl⟩, rfl, rfl, rfl⟩

theorem SameSetup.trans (first : s.SameSetup t) (second : t.SameSetup u) : s.SameSetup u where
  flags := second.flags.trans first.flags
  flag := second.flag.trans first.flag
  config := second.config.trans first.config
  adjacency := second.adjacency.trans first.adjacency
  names := second.names.trans first.names

theorem sameSetup_carry [EntryTree α τ] {run after : Run α} (loaded : s.run = some run)
    (same : after.flag = run.flag) (places : Option (Array (Vec α))) :
    s.SameSetup (s.carry after places) := by
  have flag : some after.flag = s.run.map Run.flag := by rw [same, loaded, Option.map_some]
  cases places with
  | none => exact ⟨⟨rfl, flag⟩, rfl, rfl, rfl⟩
  | some places => exact ⟨⟨rfl, flag⟩, rfl, rfl, rfl⟩

theorem sameSetup_moveVertex [Multigraph γ] [EntryTree α τ] (v : VertexId) (target : Vec α)
    (s : Session α γ τ) :
    s.SameSetup (s.moveVertex v target).2 := by
  rcases moveVertex_refused_or_ok v target s with ⟨e, refused⟩ | ⟨ids, after, moves⟩
  · rw [refused]
    exact .refl s
  · obtain ⟨-, source, -, rfl⟩ := moveVertex_ok moves
    rw [moves]
    exact ⟨⟨rfl, rfl⟩, rfl, rfl, rfl⟩

variable [PolarScalar α] [EntryTree α τ]

theorem sameSetup_nextFrame (s : Session α γ τ) : s.SameSetup s.nextFrame.2 := by
  cases loaded : s.run with
  | none =>
      rw [nextFrame_of_none loaded]
      exact .refl s
  | some run =>
      rw [nextFrame_of_some loaded]
      exact sameSetup_carry loaded (run.flag_nextFrame s.flags) _

theorem sameSetup_settle (s : Session α γ τ) : s.SameSetup s.settle.2 := by
  cases loaded : s.run with
  | none =>
      rw [settle_of_none loaded]
      exact .refl s
  | some run =>
      rw [settle_of_some loaded]
      exact sameSetup_carry loaded (run.flag_finish s.flags) _

end Setup

end Session

end SpringLayout
