import SpringLayout.Proofs.Run.Schedule
import SpringLayout.Proofs.Simulation.Refusal

/-!
Runs that cannot move.

A run may be started from any state, one whose parts do not fit together included. Frames and
finishing are then refused for as long as the run is not over, with the cause that the check of the
state gives. A refusal comes before the first step: the run is left as it was, and asking again is
refused again. Main statement: `Playback.refusesIntact`, for every run whatever was asked of it
before.
-/

namespace SpringLayout

/-! ### A row of steps in a run -/

namespace Run

variable {α : Type} [PolarScalar α] {flags : StopFlags} {r : Run α}

/-- What takes a row of steps while the run is running, and nothing else, is refused as that row
is. -/
theorem refusedAs_of_row {β : Type} {limit : Nat} {attempt : Attempt (Run α) β}
    (ended : r.isRunning flags = false → ∃ b, attempt.1 = .ok b)
    (taken : r.isRunning flags = true → ∀ report,
      (r.simulation.advance r.config 0 limit).1 = .ok report → ∃ b, attempt.1 = .ok b)
    (refused : r.isRunning flags = true → ∀ e,
      r.simulation.advance r.config 0 limit = (.error e, r.simulation) → attempt = (.error e, r)) :
    RefusedAs (r.isRunning flags = true ∧ 0 < limit) r.simulation r attempt := by
  have row := Simulation.refusedAs_advance r.config r.simulation 0 limit
  cases running : r.isRunning flags with
  | false =>
      obtain ⟨b, answered⟩ := ended running
      apply RefusedAs.of_ok answered
      rintro ⟨impossible, -⟩
      cases impossible
  | true =>
      cases ends : (r.simulation.advance r.config 0 limit).1 with
      | ok report =>
          obtain ⟨b, answered⟩ := taken running report ends
          apply RefusedAs.of_ok answered
          rintro ⟨-, pos⟩
          exact row.fits_of_ok ends pos
      | error e =>
          obtain ⟨pos, misfit⟩ := (row.error_iff e).mp ends
          exact .of_error ⟨rfl, pos⟩ misfit
            (refused running e (Prod.ext ends (row.intact e ends)))

theorem refusedAs_nextFrame (flags : StopFlags) (r : Run α) :
    RefusedAs (r.isRunning flags = true ∧ 0 < r.stepsPerFrame) r.simulation r
      (r.nextFrame flags) := by
  apply refusedAs_of_row
  · intro ended
    rw [nextFrame_of_over ended]
    exact ⟨_, rfl⟩
  · intro running report ends
    rw [nextFrame, if_pos running]
    split
    · next shows =>
        rw [shows] at ends
        cases ends
    · exact ⟨_, rfl⟩
  · intro running e refused
    rw [nextFrame, if_pos running, refused]

theorem refusedAs_finish (flags : StopFlags) (r : Run α) :
    RefusedAs (r.isRunning flags = true ∧ 0 < r.config.maxIterations.toNat) r.simulation r
      (r.finish flags) := by
  apply refusedAs_of_row
  · intro ended
    rw [finish_of_over ended]
    exact ⟨_, rfl⟩
  · intro running report ends
    rw [finish, if_pos running, Simulation.run, Simulation.settle]
    split
    · next shows =>
        rw [shows] at ends
        cases ends
    · exact ⟨_, rfl⟩
  · intro running e refused
    rw [finish, if_pos running, Simulation.run, Simulation.settle, refused]

/-- The run is under the configuration `c`, and its state is checked as `s₀` is. -/
structure ChecksAs (c : Config α) (s₀ : Simulation α) (r : Run α) : Prop where
  config : r.config = c
  validate : r.simulation.validate = s₀.validate

variable {c : Config α} {s₀ : Simulation α}

/-- A row of steps leaves nothing new for the check to look at. -/
theorem ChecksAs.of_row (checks : r.ChecksAs c s₀) {limit : Nat}
    {answer : Except LayoutError Report} {simulation : Simulation α}
    (ends : r.simulation.advance r.config 0 limit = (answer, simulation)) {after : Run α}
    (config : after.config = r.config) (state : after.simulation = simulation) :
    after.ChecksAs c s₀ where
  config := config.trans checks.config
  validate := by
    have kept := Simulation.validate_advance r.config 0 limit r.simulation
    rw [ends] at kept
    rw [state, kept, checks.validate]

theorem ChecksAs.nextFrame (checks : r.ChecksAs c s₀) (flags : StopFlags) :
    (r.nextFrame flags).2.ChecksAs c s₀ := by
  unfold Run.nextFrame
  split
  · split
    · next ends => exact checks.of_row ends rfl rfl
    · next ends => exact checks.of_row ends rfl rfl
  · exact checks

theorem ChecksAs.finish (checks : r.ChecksAs c s₀) (flags : StopFlags) :
    (r.finish flags).2.ChecksAs c s₀ := by
  unfold Run.finish Simulation.run Simulation.settle
  split
  · split
    · next ends => exact checks.of_row ends rfl rfl
    · next ends => exact checks.of_row ends rfl rfl
  · exact checks

end Run

/-! ### Refused commands -/

namespace Playback

variable {α : Type} [PolarScalar α] {c : Config α} {s₀ : Simulation α} {p : Playback α}
  {command : PlaybackCommand} {e : LayoutError}

theorem exec_nextFrame_snd (p : Playback α) :
    (p.exec .nextFrame).2 = { p with run := (p.run.nextFrame p.flags).2 } := by
  rw [exec]
  split
  · next shows => rw [shows]
  · next refused => rw [refused]

theorem exec_finish_snd (p : Playback α) :
    (p.exec .finish).2 = { p with run := (p.run.finish p.flags).2 } := by
  rw [exec]
  split
  · next ends => rw [ends]
  · next refused => rw [refused]

theorem exec_nextFrame_eq_refused_iff :
    (p.exec .nextFrame).1 = .refused e ↔ (p.run.nextFrame p.flags).1 = .error e := by
  rw [exec]
  split
  · next shows => simp [shows]
  · next refused => simp [refused]

theorem exec_finish_eq_refused_iff :
    (p.exec .finish).1 = .refused e ↔ (p.run.finish p.flags).1 = .error e := by
  rw [exec]
  split
  · next ends => simp [ends]
  · next refused => simp [refused]

/-- Only frames and finishing are ever refused. -/
theorem moves_of_refused (refused : (p.exec command).1 = .refused e) :
    command = .nextFrame ∨ command = .finish := by
  cases command with
  | nextFrame => exact Or.inl rfl
  | finish => exact Or.inr rfl
  | copy i =>
      rw [exec] at refused
      split at refused
      · cases refused
      · cases refused
  | raise i =>
      rw [exec] at refused
      split at refused
      · cases refused
      · cases refused
  | _ => cases refused

/-- A refused command changes nothing, and it is refused because the parts of the state do not fit
together. -/
theorem intact_of_refused (refused : (p.exec command).1 = .refused e) :
    (p.exec command).2 = p ∧ p.run.simulation.validate = .error e := by
  rcases moves_of_refused refused with rfl | rfl
  · rw [exec_nextFrame_eq_refused_iff] at refused
    have refusedAs := p.run.refusedAs_nextFrame p.flags
    rw [exec_nextFrame_snd, refusedAs.intact e refused]
    exact ⟨rfl, ((refusedAs.error_iff e).mp refused).2⟩
  · rw [exec_finish_eq_refused_iff] at refused
    have refusedAs := p.run.refusedAs_finish p.flags
    rw [exec_finish_snd, refusedAs.intact e refused]
    exact ⟨rfl, ((refusedAs.error_iff e).mp refused).2⟩

/-- No command changes the configuration of a run, or what the check of its state looks at. -/
theorem checksAs_exec (checks : p.run.ChecksAs c s₀) (command : PlaybackCommand) :
    (p.exec command).2.run.ChecksAs c s₀ := by
  cases command with
  | nextFrame =>
      rw [exec_nextFrame_snd]
      exact checks.nextFrame p.flags
  | finish =>
      rw [exec_finish_snd]
      exact checks.finish p.flags
  | copy i =>
      rw [exec]
      split
      · exact checks
      · exact checks
  | raise i =>
      rw [exec]
      split
      · exact checks
      · exact checks
  | _ => exact checks

theorem checksAs_perform (checks : p.run.ChecksAs c s₀) (commands : List PlaybackCommand) :
    (p.perform commands).2.run.ChecksAs c s₀ := by
  induction commands generalizing p with
  | nil => exact checks
  | cons command rest ih => exact ih (checksAs_exec checks command)

/-- What is known of refusals to a run that was started from `s₀`, whatever `s₀` is. -/
structure RefusesIntact (c : Config α) (s₀ : Simulation α) (p : Playback α) : Prop where
  /-- The state fits together or not as `s₀` did. -/
  validate : p.run.simulation.validate = s₀.validate
  nextFrame_iff : ∀ e, (p.exec .nextFrame).1 = .refused e ↔
    p.run.isRunning p.flags = true ∧ p.run.simulation.validate = .error e
  finish_iff : ∀ e, (p.exec .finish).1 = .refused e ↔
    p.run.isRunning p.flags = true ∧ 0 < c.maxIterations ∧ p.run.simulation.validate = .error e
  /-- What is refused is the first step. -/
  firstStep : ∀ command e, (p.exec command).1 = .refused e →
    p.run.simulation.step c = (.error e, p.run.simulation)
  /-- Once a step is taken, no further one is refused. -/
  laterSteps : ∀ outcome, (p.run.simulation.step c).1 = .ok outcome →
    ∀ t e, ((p.run.simulation.stepped c t).step c).1 ≠ .error e
  /-- The run with its state and its frames, all flags and all handles are as they were. -/
  intact : ∀ command e, (p.exec command).1 = .refused e → (p.exec command).2 = p
  again : ∀ command e, (p.exec command).1 = .refused e →
    ((p.exec command).2.exec command).1 = .refused e

theorem refusesIntact_of_checksAs (checks : p.run.ChecksAs c s₀) : p.RefusesIntact c s₀ := by
  constructor
  · exact checks.validate
  · intro e
    rw [exec_nextFrame_eq_refused_iff, (p.run.refusedAs_nextFrame p.flags).error_iff]
    simp [p.run.stepsPerFrame_pos]
  · intro e
    rw [exec_finish_eq_refused_iff, (p.run.refusedAs_finish p.flags).error_iff, checks.config,
      and_assoc]
    exact Iff.rfl
  · intro command e refused
    exact Simulation.step_of_misfit c (intact_of_refused refused).2
  · intro outcome taken
    exact Simulation.step_stepped_ne_error taken
  · intro command e refused
    exact (intact_of_refused refused).1
  · intro command e refused
    rw [(intact_of_refused refused).1]
    exact refused

/-- Whatever state a run was started from and whatever was asked of it, it is refused a move only
for a state that does not fit together, before the first step and without a trace. So is settling a
state by itself. -/
theorem refusesIntact (c : Config α) (s₀ : Simulation α) (commands : List PlaybackCommand) :
    (driven c s₀ commands).2.RefusesIntact c s₀ ∧
      ∀ (s : Simulation α) (limit : UInt32),
        RefusedAs (0 < limit) s s (s.settle c limit) := by
  constructor
  · apply refusesIntact_of_checksAs
    exact checksAs_perform (p := start c s₀) ⟨rfl, rfl⟩ commands
  · intro s limit
    exact Simulation.refusedAs_settle c s limit

end Playback

end SpringLayout
