import Mathlib.Data.List.Forall2
import SpringLayout.Proofs.Session.Alike

/-!
Moves by hand do not interfere with the run.

`sparing` leaves out some of the commands by which vertices are moved or picked by hand.
`Session.sparing_undisturbed` says that all other commands are answered as they were, leave the run
as they did, and show all vertices at the same places whenever they show them anew.
-/

namespace SpringLayout

/-! ### Leaving out moves and picks -/

section Sparing

variable {α β γ τ : Type}

/-- A vertex is moved by hand, or asked for by a place on the display. -/
def SessionCommand.byHand : SessionCommand α → Bool
  | .moveVertex _ _ => true
  | .pick _ _ => true
  | _ => false

/-- The list without the members at the places that `skips` tells, as far as their command is one by
hand. -/
def sparing (command : β → SessionCommand α) (skips : Nat → Bool) : List β → List β
  | [] => []
  | x :: xs =>
    let rest := sparing command (fun i => skips (i + 1)) xs
    if skips 0 && (command x).byHand then rest else x :: rest

/-- The exchange `x` differs from `y` at most in where vertices are displayed. -/
structure Exchange.Undisturbed (x y : Exchange α γ τ) : Prop where
  command : x.command = y.command
  answer : ¬ y.command.SeesPlaces → x.answer = y.answer
  /-- The run and with it the simulation, to the last bit. -/
  run : x.left.run = y.left.run
  flags : x.left.flags = y.left.flags
  running : x.left.isRunning = y.left.isRunning
  settled : x.left.isSettled = y.left.isSettled
  adjacency : x.left.adjacency = y.left.adjacency
  names : x.left.names = y.left.names
  config : x.left.config = y.left.config
  /-- Where all vertices are shown anew, they are at the same places. -/
  shown : y.Publishes → x.left.display = y.left.display ∧ x.left.index = y.left.index

end Sparing

namespace Session

/-! ### Sessions that agree but for the places -/

section Places

variable {α γ τ : Type} [Multigraph γ] [EntryTree α τ]

theorem agree_new (config : Config α) :
    (new config : Session α γ τ).Agree 0 False (new config) where
  run := rfl
  flags := .refl _
  adjacency := rfl
  names := rfl
  display_size := rfl
  display _ := rfl
  index _ := rfl
  config := rfl

end Places

section Commands

variable {α γ τ : Type} [PolarScalar α] [Multigraph γ] [EntryTree α τ] {s t : Session α γ τ}

/-- A command that both sessions are given is undisturbed, and leaves them in agreement. -/
theorem Agree.undisturbed_exchange (agree : s.Agree 0 False t) (command : SessionCommand α) :
    (s.exchange command).Undisturbed (t.exchange command) ∧
      (s.exchange command).left.Agree 0 False (t.exchange command).left := by
  obtain ⟨step, left⟩ := agree.exchange command
  rw [SessionCommand.shift_zero] at step left
  refine ⟨?_, left.mono False.elim⟩
  exact
    { command := rfl
      answer := fun unseen => by
        rw [step.answer unseen, SessionAnswer.shift_zero]
      run := left.run_eq
      flags := left.flags.eq_of_zero
      running := left.isRunning
      settled := left.isSettled
      adjacency := left.adjacency
      names := left.names
      config := left.config
      shown := fun publishes =>
        ⟨left.display (Or.inr publishes), left.index (Or.inr publishes)⟩ }

/-- A command by hand that only the first session is given leaves them in agreement. -/
theorem Agree.exchange_byHand (agree : s.Agree 0 False t) {command : SessionCommand α}
    (hand : command.byHand = true) : (s.exchange command).left.Agree 0 False t := by
  have config : (s.exchange command).left.config = t.config := by
    rw [config_exchange, ← agree.config]
    cases command with
    | moveVertex v target => rfl
    | pick p radius => rfl
    | _ => cases hand
  refine ⟨?_, config⟩
  cases command with
  | moveVertex v target => exact agree.toAlike.moveVertex_left v target
  | pick p radius => exact agree.toAlike
  | _ => cases hand

theorem Agree.undisturbed (agree : s.Agree 0 False t) (skips : Nat → Bool)
    (commands : List (SessionCommand α)) :
    List.Forall₂ Exchange.Undisturbed
      (sparing Exchange.command skips (s.exchanges commands))
      (t.exchanges (sparing id skips commands)) := by
  induction commands generalizing s t skips with
  | nil => exact .nil
  | cons command rest ih =>
      rw [exchanges, sparing, sparing, command_exchange, id]
      by_cases skipped : (skips 0 && command.byHand) = true
      · -- Only the first session is given the command; the other waits.
        rw [if_pos skipped, if_pos skipped]
        exact ih (agree.exchange_byHand (Bool.and_eq_true_iff.mp skipped).2) _
      · rw [if_neg skipped, if_neg skipped]
        obtain ⟨undisturbed, left⟩ := agree.undisturbed_exchange command
        exact .cons undisturbed (ih left _)

/-- Leaving out moves and picks by hand disturbs no other command, whatever was asked of the
session. -/
theorem sparing_undisturbed (config : Config α) (skips : Nat → Bool)
    (commands : List (SessionCommand α)) :
    List.Forall₂ Exchange.Undisturbed
      (sparing Exchange.command skips ((new config : Session α γ τ).exchanges commands))
      ((new config).exchanges (sparing id skips commands)) :=
  (agree_new config).undisturbed skips commands

end Commands

end Session

end SpringLayout
