import SpringLayout.Proofs.Simulation.Iteration
import SpringLayout.Run.Basic

/-!
What a run with a valid simulation does when it is asked to move: it takes a first part of the plain
iteration while it is running (`Run.nextFrame_of_running`, `Run.finish_of_running`), and nothing at
all once it is over. It is never refused.
-/

namespace SpringLayout

namespace Run

theorem stepsPerFrame_pos {α : Type} (r : Run α) : 0 < r.stepsPerFrame :=
  Nat.lt_of_lt_of_le Nat.one_pos (Nat.le_max_left _ _)

theorem settled_of_isRunning {α : Type} {flags : StopFlags} {r : Run α}
    (running : r.isRunning flags = true) : r.settled = false := by
  simp only [isRunning, Bool.and_eq_true, Bool.not_eq_true'] at running
  exact running.1

variable {α : Type} [PolarScalar α] {flags : StopFlags} {r : Run α}

/-- The run after `steps` more steps. -/
def moved (r : Run α) (steps : Nat) (settled : Bool) : Run α :=
  { r with simulation := r.simulation.stepped r.config steps, settled := settled }

/-- A running run that takes no step is the same run. -/
theorem moved_zero {limit : Nat} {settled : Bool} (running : r.isRunning flags = true)
    (advance : Simulation.Advance r.config r.simulation limit 0 settled) :
    r.moved 0 settled = r := by
  have unsettled : settled = r.settled := by
    rw [settled_of_isRunning running, ← Bool.not_eq_true]
    exact advance.settled_iff.mp
  rw [unsettled]
  rfl

theorem nextFrame_of_running (running : r.isRunning flags = true) (valid : r.simulation.Valid) :
    ∃ steps settled,
      r.nextFrame flags =
        (.ok (some ⟨(r.moved steps settled).snapshot, settled, steps⟩),
          { r.moved steps settled with frames := r.frames + 1 }) ∧
        Simulation.Advance r.config r.simulation r.stepsPerFrame steps settled := by
  obtain ⟨steps, settled, run, advance⟩ :=
    Simulation.advance_of_valid r.config valid 0 r.stepsPerFrame
  refine ⟨steps, settled, ?_, advance⟩
  rw [nextFrame, if_pos running, run, Nat.zero_add]
  rfl

theorem nextFrame_of_over (ended : r.isRunning flags = false) :
    r.nextFrame flags = (.ok none, r) := by
  rw [nextFrame, if_neg (by simp [ended])]

theorem finish_of_running (running : r.isRunning flags = true) (valid : r.simulation.Valid) :
    ∃ steps settled,
      r.finish flags = (.ok ⟨steps, settled⟩, r.moved steps settled) ∧
        Simulation.Advance r.config r.simulation r.config.maxIterations.toNat steps settled := by
  obtain ⟨steps, settled, run, advance⟩ :=
    Simulation.advance_of_valid r.config valid 0 r.config.maxIterations.toNat
  refine ⟨steps, settled, ?_, advance⟩
  rw [finish, if_pos running, Simulation.run, Simulation.settle, run, Nat.zero_add]
  rfl

theorem finish_of_over (ended : r.isRunning flags = false) :
    r.finish flags = (.ok ⟨0, r.settled⟩, r) := by
  rw [finish, if_neg (by simp [ended])]

/-- No motion changes the flag of a run. -/
@[simp] theorem flag_nextFrame (flags : StopFlags) (r : Run α) :
    (r.nextFrame flags).2.flag = r.flag := by
  unfold nextFrame
  split
  · split
    · rfl
    · rfl
  · rfl

@[simp] theorem flag_finish (flags : StopFlags) (r : Run α) :
    (r.finish flags).2.flag = r.flag := by
  unfold finish
  split
  · split
    · rfl
    · rfl
  · rfl

end Run

end SpringLayout
