import SpringLayout.Proofs.Run.Motion
import SpringLayout.Run.Playback
import SpringLayout.Scalar.Binary64

/-!
Runs do not depend on how they are driven.

A run is driven by frames and by finishing it, in any order and mixed with anything else that can be
asked of it. `Playback.perform` asks for a list of commands, and `stepsTaken` and `framesShown` read
off the answers how far the run has come. `Run.At` says that a run has come that far along the plain
iteration, which every command keeps (`Run.At.exec`). Main statement: the state depends on the steps
taken and on nothing else (`Playback.schedule_independent`).
-/

namespace SpringLayout

/-! ### Steps and frames by the answers -/

namespace PlaybackAnswer

variable {α : Type}

/-- The steps that an answer tells of. -/
def steps : PlaybackAnswer α → Nat
  | .frame (some f) => f.steps
  | .report r => r.iterations
  | _ => 0

/-- The answer is a frame. -/
def isFrame : PlaybackAnswer α → Bool
  | .frame (some _) => true
  | _ => false

/-- The steps of all frames and reports among the answers. -/
def stepsTaken (answers : List (PlaybackAnswer α)) : Nat :=
  answers.foldr (fun answer taken => answer.steps + taken) 0

/-- The frames among the answers. -/
def framesShown (answers : List (PlaybackAnswer α)) : Nat := answers.countP isFrame

@[simp] theorem stepsTaken_cons (a : PlaybackAnswer α) (answers : List (PlaybackAnswer α)) :
    stepsTaken (a :: answers) = a.steps + stepsTaken answers := by
  simp [stepsTaken]

@[simp] theorem framesShown_cons (a : PlaybackAnswer α) (answers : List (PlaybackAnswer α)) :
    framesShown (a :: answers) = (if a.isFrame then 1 else 0) + framesShown answers := by
  rw [framesShown, List.countP_cons, Nat.add_comm]
  rfl

end PlaybackAnswer

/-- The answers to some commands in a row, and what they leave. -/
def Playback.perform {α : Type} [PolarScalar α] (p : Playback α) :
    List PlaybackCommand → List (PlaybackAnswer α) × Playback α
  | [] => ([], p)
  | command :: rest =>
    let (answer, next) := p.exec command
    let (answers, last) := next.perform rest
    (answer :: answers, last)

/-! ### How far a run has come -/

namespace Run

variable {α : Type} [PolarScalar α] {c : Config α} {s₀ : Simulation α} {flags : StopFlags}
  {r : Run α} {taken shown : Nat}

/-- Under the configuration `c` the run has taken `taken` steps from `s₀` and shown `shown`
frames. -/
structure At (c : Config α) (s₀ : Simulation α) (taken shown : Nat) (r : Run α) : Prop where
  config : r.config = c
  simulation : r.simulation = s₀.stepped c taken
  /-- No step but the last may be settled. -/
  unsettled : ∀ t < taken, ¬ s₀.SettlesAt c t
  settled_iff : r.settled = true ↔ s₀.SettlesAt c taken
  frames : r.frames = UInt32.ofNat shown

theorem At.start (c : Config α) (s₀ : Simulation α) (flag : StopFlag) :
    (Run.start c s₀ flag).At c s₀ 0 0 where
  config := rfl
  simulation := rfl
  unsettled t less := absurd less (Nat.not_lt_zero t)
  settled_iff := iff_of_false Bool.false_ne_true id
  frames := rfl

theorem At.valid (come : r.At c s₀ taken shown) (valid : s₀.Valid) : r.simulation.Valid := by
  rw [come.simulation]
  exact valid.stepped c taken

theorem At.not_settlesAt (come : r.At c s₀ taken shown) (running : r.isRunning flags = true) :
    ¬ s₀.SettlesAt c taken := by
  rw [← come.settled_iff, settled_of_isRunning running]
  exact Bool.false_ne_true

/-- A running run that advances comes further along the same iteration. -/
theorem At.moved (come : r.At c s₀ taken shown) (running : r.isRunning flags = true)
    {limit steps : Nat} {settled : Bool}
    (advance : Simulation.Advance r.config r.simulation limit steps settled) :
    (r.moved steps settled).At c s₀ (taken + steps) shown := by
  have unsettled := come.not_settlesAt running
  obtain ⟨-, rest, settled_iff, -⟩ := advance
  rw [come.config, come.simulation] at rest settled_iff
  constructor
  · exact come.config
  · rw [Run.moved, come.config, come.simulation, Simulation.stepped_add]
  · exact Simulation.unsettled_add come.unsettled unsettled rest
  · rw [← Simulation.settlesAt_stepped unsettled]
    exact settled_iff
  · exact come.frames

/-- What a frame shows that comes after `taken` steps from `s₀`: the state its own steps further on,
fitted to the viewport. -/
structure ShowsFrom (c : Config α) (s₀ : Simulation α) (taken : Nat) (frame : Frame α) : Prop where
  positions : frame.positions =
    c.viewport.normalize (s₀.stepped c (taken + frame.steps)).positions
  settled_iff : frame.settled = true ↔ s₀.SettlesAt c (taken + frame.steps)
  steps_pos : 1 ≤ frame.steps
  steps_le : frame.steps ≤ max 1 c.stepsPerFrame.toNat
  /-- Only a settled frame is short. -/
  steps_eq : frame.settled = false → frame.steps = max 1 c.stepsPerFrame.toNat

/-- The next frame of a running run shows the state it ends in. -/
theorem At.nextFrame (come : r.At c s₀ taken shown) (valid : s₀.Valid)
    (running : r.isRunning flags = true) :
    ∃ frame after, r.nextFrame flags = (.ok (some frame), after) ∧ ShowsFrom c s₀ taken frame ∧
      after.At c s₀ (taken + frame.steps) (shown + 1) := by
  obtain ⟨steps, settled, shows, advance⟩ := nextFrame_of_running running (come.valid valid)
  have further := come.moved running advance
  refine ⟨_, _, shows, ?_, ?_⟩
  · constructor
    · rw [snapshot, further.config, further.simulation]
    · exact further.settled_iff
    · exact advance.pos r.stepsPerFrame_pos
    · rw [← come.config]
      exact advance.steps_le
    · rw [← come.config]
      exact advance.limit_of_unsettled
  · exact { further with frames := by rw [come.frames, UInt32.ofNat_add]; rfl }

theorem At.finish (come : r.At c s₀ taken shown) (valid : s₀.Valid) (flags : StopFlags) :
    ∃ report after, r.finish flags = (.ok report, after) ∧
      after.At c s₀ (taken + report.iterations) shown := by
  cases running : r.isRunning flags with
  | false => exact ⟨_, _, finish_of_over running, come⟩
  | true =>
      obtain ⟨steps, settled, ends, advance⟩ := finish_of_running running (come.valid valid)
      exact ⟨_, _, ends, come.moved running advance⟩

theorem At.exec_nextFrame {p : Playback α} (come : p.run.At c s₀ taken shown) (valid : s₀.Valid)
    (running : p.run.isRunning p.flags = true) :
    ∃ frame next, p.exec .nextFrame = (.frame (some frame), next) ∧ ShowsFrom c s₀ taken frame ∧
      next.run.At c s₀ (taken + frame.steps) (shown + 1) := by
  obtain ⟨frame, after, shows, right, further⟩ := come.nextFrame valid running
  refine ⟨frame, { p with run := after }, ?_, right, further⟩
  rw [Playback.exec, shows]

theorem exec_nextFrame_of_over {p : Playback α} (ended : p.run.isRunning p.flags = false) :
    p.exec .nextFrame = (.frame none, p) := by
  rw [Playback.exec, nextFrame_of_over ended]

/-- Every command keeps a run on the iteration from `s₀`, and answers how far it moves it. -/
theorem At.exec {p : Playback α} (come : p.run.At c s₀ taken shown) (valid : s₀.Valid)
    (command : PlaybackCommand) :
    (p.exec command).2.run.At c s₀ (taken + (p.exec command).1.steps)
      (shown + if (p.exec command).1.isFrame then 1 else 0) := by
  cases command with
  | nextFrame =>
      cases running : p.run.isRunning p.flags with
      | false =>
          rw [exec_nextFrame_of_over running]
          exact come
      | true =>
          obtain ⟨frame, next, shows, -, further⟩ := come.exec_nextFrame valid running
          rw [shows]
          exact further
  | finish =>
      obtain ⟨report, after, ends, further⟩ := come.finish valid p.flags
      rw [Playback.exec, ends]
      exact further
  | copy i =>
      rw [Playback.exec]
      cases p.handles[i]? with
      | none => exact come
      | some flag => exact come
  | raise i =>
      rw [Playback.exec]
      cases p.handles[i]? with
      | none => exact come
      | some flag => exact come
  | snapshot => exact come
  | inspect => exact come
  | stop => exact come
  | handle => exact come
  | issue => exact come

/-- A run that has come some way comes further by exactly what the answers tell. -/
theorem At.perform (valid : s₀.Valid) (commands : List PlaybackCommand) {p : Playback α}
    (come : p.run.At c s₀ taken shown) :
    (p.perform commands).2.run.At c s₀
      (taken + PlaybackAnswer.stepsTaken (p.perform commands).1)
      (shown + PlaybackAnswer.framesShown (p.perform commands).1) := by
  induction commands generalizing p taken shown with
  | nil => exact come
  | cons command rest ih =>
      have further := ih (come.exec valid command)
      rw [Nat.add_assoc, Nat.add_assoc, ← PlaybackAnswer.stepsTaken_cons,
        ← PlaybackAnswer.framesShown_cons] at further
      exact further

theorem At.of_start (valid : s₀.Valid) (c : Config α) (commands : List PlaybackCommand) :
    ((Playback.start c s₀).perform commands).2.run.At c s₀
      (PlaybackAnswer.stepsTaken ((Playback.start c s₀).perform commands).1)
      (PlaybackAnswer.framesShown ((Playback.start c s₀).perform commands).1) := by
  have come := At.perform valid commands (p := Playback.start c s₀) (At.start c s₀ _)
  rwa [Nat.zero_add, Nat.zero_add] at come

end Run

/-! ### What does not move a simulation -/

/-- The configuration with the pace, the start and the display chosen anew. -/
def Config.repaced {α : Type} (c : Config α) (stepsPerFrame maxIterations : UInt32)
    (initialLayout : InitialLayout) (viewport : Viewport α) : Config α :=
  { c with
    stepsPerFrame := stepsPerFrame
    maxIterations := maxIterations
    initialLayout := initialLayout
    viewport := viewport }

section Repaced

variable {α : Type} [PolarScalar α] (c : Config α) (stepsPerFrame maxIterations : UInt32)
  (initialLayout : InitialLayout) (viewport : Viewport α)

theorem step_repaced (s : Simulation α) :
    s.step (c.repaced stepsPerFrame maxIterations initialLayout viewport) = s.step c := rfl

theorem stepped_repaced (s : Simulation α) (t : Nat) :
    s.stepped (c.repaced stepsPerFrame maxIterations initialLayout viewport) t =
      s.stepped c t := by
  induction t with
  | zero => rfl
  | succ t ih => rw [Simulation.stepped, Simulation.stepped, ih, step_repaced]

theorem settlesAt_repaced (s : Simulation α) (t : Nat) :
    s.SettlesAt (c.repaced stepsPerFrame maxIterations initialLayout viewport) t ↔
      s.SettlesAt c t := by
  cases t with
  | zero => exact Iff.rfl
  | succ t =>
      change (∃ outcome, ((s.stepped _ t).step _).1 = .ok outcome ∧ _) ↔ _
      rw [stepped_repaced, step_repaced]
      exact Iff.rfl

end Repaced

/-! ### Schedules -/

namespace Playback

variable {α : Type} [PolarScalar α] {c : Config α} {s₀ : Simulation α}

open PlaybackAnswer (stepsTaken framesShown)

/-- A run from `s₀` driven by some commands: the answers, and what they leave. -/
def driven (c : Config α) (s₀ : Simulation α) (commands : List PlaybackCommand) :
    List (PlaybackAnswer α) × Playback α :=
  (start c s₀).perform commands

/-- The steps that a driven run has taken by its answers. -/
def taken (c : Config α) (s₀ : Simulation α) (commands : List PlaybackCommand) : Nat :=
  stepsTaken (driven c s₀ commands).1

/-- The run that some commands leave. -/
def runAfter (c : Config α) (s₀ : Simulation α) (commands : List PlaybackCommand) : Run α :=
  (driven c s₀ commands).2.run

/-- The commands drive the run along the plain iteration from `s₀`, as far as the answers tell and
never past the first settled step. -/
structure FollowsIteration (c : Config α) (s₀ : Simulation α) (commands : List PlaybackCommand) :
    Prop where
  state : (runAfter c s₀ commands).simulation = s₀.stepped c (taken c s₀ commands)
  /-- Every step of the iteration is taken. -/
  outcome : ∀ t, ∃ outcome, ((s₀.stepped c t).step c).1 = .ok outcome
  unsettled : ∀ t < taken c s₀ commands, ¬ s₀.SettlesAt c t
  settled_iff : (runAfter c s₀ commands).settled = true ↔
    1 ≤ taken c s₀ commands ∧ s₀.SettlesAt c (taken c s₀ commands)
  frames : (runAfter c s₀ commands).frames = UInt32.ofNat (framesShown (driven c s₀ commands).1)
  /-- A run that is not over answers with a frame. -/
  frame_of_running : (runAfter c s₀ commands).isRunning (driven c s₀ commands).2.flags = true →
    ∃ frame next, (driven c s₀ commands).2.exec .nextFrame = (.frame (some frame), next)
  /-- Every frame shows the state that it ends in. -/
  frame_shows : ∀ frame next,
    (driven c s₀ commands).2.exec .nextFrame = (.frame (some frame), next) →
      Run.ShowsFrom c s₀ (taken c s₀ commands) frame ∧
        next.run.simulation = s₀.stepped c (taken c s₀ commands + frame.steps)

theorem runAfter_at (valid : s₀.Valid) (c : Config α) (commands : List PlaybackCommand) :
    (runAfter c s₀ commands).At c s₀ (taken c s₀ commands)
      (framesShown (driven c s₀ commands).1) :=
  Run.At.of_start valid c commands

theorem follows_iteration (valid : s₀.Valid) (c : Config α) (commands : List PlaybackCommand) :
    FollowsIteration c s₀ commands := by
  have come : (driven c s₀ commands).2.run.At c s₀ _ _ := runAfter_at valid c commands
  constructor
  · exact come.simulation
  · intro t
    obtain ⟨outcome, taken⟩ := Simulation.step_ok c (valid.stepped c t)
    exact ⟨outcome, congrArg Prod.fst taken⟩
  · exact come.unsettled
  · refine come.settled_iff.trans ?_
    exact ⟨fun settles => ⟨settles.pos, settles⟩, And.right⟩
  · exact come.frames
  · intro running
    obtain ⟨frame, next, shows, -⟩ := come.exec_nextFrame valid running
    exact ⟨frame, next, shows⟩
  · intro frame next answered
    cases running : (driven c s₀ commands).2.run.isRunning (driven c s₀ commands).2.flags with
    | false =>
        rw [Run.exec_nextFrame_of_over running] at answered
        cases answered
    | true =>
        obtain ⟨frame', next', shows, right, further⟩ := come.exec_nextFrame valid running
        rw [shows] at answered
        cases answered
        exact ⟨right, further.simulation⟩

/-- The first settled step is unique. -/
theorem first_settled_unique {s : Simulation α} {m n : Nat} (before_m : ∀ t < m, ¬ s.SettlesAt c t)
    (at_m : s.SettlesAt c m) (before_n : ∀ t < n, ¬ s.SettlesAt c t) (at_n : s.SettlesAt c n) :
    m = n := by
  rcases Nat.lt_trichotomy m n with less | same | more
  · exact absurd at_m (before_n m less)
  · exact same
  · exact absurd at_n (before_m n more)

/-- After any commands the state is the plain iteration of the step, as often as the answers tell.
So neither the schedule nor the pace matters: of two runs from one state under the same force law,
equally many steps leave the same state, and where both settle they settle at the same step. -/
theorem schedule_independent (c : Config α) (valid : s₀.Valid)
    (commands : List PlaybackCommand) :
    FollowsIteration c s₀ commands ∧
      ∀ (stepsPerFrame maxIterations : UInt32) (initialLayout : InitialLayout)
        (viewport : Viewport α) (others : List PlaybackCommand),
        let c' := c.repaced stepsPerFrame maxIterations initialLayout viewport
        (taken c' s₀ others = taken c s₀ commands →
            (runAfter c' s₀ others).simulation = (runAfter c s₀ commands).simulation) ∧
          ((runAfter c' s₀ others).settled = true → (runAfter c s₀ commands).settled = true →
            taken c' s₀ others = taken c s₀ commands) := by
  refine ⟨follows_iteration valid c commands, ?_⟩
  intro stepsPerFrame maxIterations initialLayout viewport others c'
  have come := runAfter_at valid c commands
  have come' := runAfter_at valid c' others
  have settles_iff := settlesAt_repaced c stepsPerFrame maxIterations initialLayout viewport s₀
  constructor
  · intro same
    rw [come.simulation, come'.simulation, same]
    exact stepped_repaced c stepsPerFrame maxIterations initialLayout viewport s₀ _
  · intro settled' settled
    exact first_settled_unique
      (fun t less => mt (settles_iff t).mpr (come'.unsettled t less))
      ((settles_iff _).mp (come'.settled_iff.mp settled'))
      come.unsettled (come.settled_iff.mp settled)

/-- Two vertices joined by a stretched spring. -/
def stretched : Simulation Float := .atRest #[⟨0, 0⟩, ⟨1000, 0⟩] [⟨⟨0⟩, ⟨1⟩⟩]

theorem schedule_independent_stretched :
    stretched.Valid ∧
      FollowsIteration Config.standard stretched [.nextFrame, .handle, .finish, .stop] ∧
      ∀ (stepsPerFrame maxIterations : UInt32) (initialLayout : InitialLayout)
        (viewport : Viewport Float) (others : List PlaybackCommand),
        let c' := Config.standard.repaced stepsPerFrame maxIterations initialLayout viewport
        let commands := [.nextFrame, .handle, .finish, .stop]
        (taken c' stretched others = taken .standard stretched commands →
            (runAfter c' stretched others).simulation =
              (runAfter .standard stretched commands).simulation) ∧
          ((runAfter c' stretched others).settled = true →
            (runAfter .standard stretched commands).settled = true →
            taken c' stretched others = taken .standard stretched commands) :=
  ⟨by decide, schedule_independent Config.standard (by decide) _⟩

end Playback

end SpringLayout
