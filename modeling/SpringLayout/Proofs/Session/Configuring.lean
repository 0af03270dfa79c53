import Mathlib.Data.List.Forall2
import SpringLayout.Proofs.Session.Alike
import SpringLayout.Scalar.Binary64

/-!
A new configuration waits for the next graph.

A run keeps the configuration under which its graph was loaded, and a session keeps another one for
graphs to come. `Session.setConfig_unheard` says that until another graph is loaded, nothing but a
question about the latter, or a step of somebody else's flat state, tells which one a session was
given: all other answers are the same, and so are all other parts of the session.
-/

namespace SpringLayout

/-! ### Who asks for the configuration -/

section Asking

variable {α γ τ : Type}

/-- The answer is made from the configuration for graphs to come. -/
def SessionCommand.AsksConfig : SessionCommand α → Prop
  | .config => True
  | .stepFlat _ _ => True
  | _ => False

/-- The answer that a step of a flat state comes to. -/
def SessionAnswer.ofStep : Attempt (FlatState α) (StepOutcome α) → SessionAnswer α
  | (.ok outcome, after) => .flat outcome.settled after
  | (.error e, _) => .refused e

/-- The exchanges are the same but for the configuration for graphs to come. -/
structure Exchange.SameButConfig (x y : Exchange α γ τ) : Prop where
  command : x.command = y.command
  answer : ¬ y.command.AsksConfig → x.answer = y.answer
  /-- The run with its simulation, the stop flags, the display and all else is the same. -/
  left : x.left = y.left.setConfig x.left.config

/-- A configuration that is read without being asked for is that of a graph being loaded. -/
theorem Exchange.flag?_ne_none_of_readsConfig {x : Exchange α γ τ} (reads : x.ReadsConfig)
    (unasked : ¬ x.command.AsksConfig) : x.flag? ≠ none := by
  obtain ⟨command, answer, left⟩ := x
  cases command with
  | load d =>
      cases answer with
      | loaded flag => exact Option.some_ne_none flag
      | _ => exact reads.elim
  | config => exact absurd trivial unasked
  | stepFlat state edges => exact absurd trivial unasked
  | _ => exact reads.elim

end Asking

namespace Session

/-! ### Sessions that differ in their configuration -/

section Parts

variable {α γ τ : Type}

theorem alike_setConfig (s : Session α γ τ) (c₁ c₂ : Config α) :
    (s.setConfig c₁).Alike 0 True (s.setConfig c₂) where
  run := by
    change s.run = s.run.map (Run.shift 0)
    cases s.run with
    | none => rfl
    | some run => rfl
  flags := .refl s.flags
  adjacency := rfl
  names := rfl
  display_size := rfl
  display _ := rfl
  index _ := rfl

/-- Alike sessions that issued the same flags differ in their configuration alone. -/
theorem Alike.eq_setConfig {s t : Session α γ τ} (alike : s.Alike 0 True t) :
    s = t.setConfig s.config := by
  rw [setConfig, ← alike.run_eq, ← alike.adjacency, ← alike.names, ← alike.display trivial,
    ← alike.index trivial, ← alike.flags.eq_of_zero]

end Parts

section Commands

variable {α γ τ : Type} [PolarScalar α] [Multigraph γ] [EntryTree α τ] {s t : Session α γ τ}

/-- A flat state takes its step under the configuration for graphs to come, and the session takes no
note of it. -/
theorem exchange_stepFlat (s : Session α γ τ) (state : FlatState α) (edges : List Nat) :
    s.exchange (.stepFlat state edges) =
      ⟨.stepFlat state edges, .ofStep (state.step s.config edges), s⟩ := by
  rw [exchange, exec, stepFlat]
  obtain ⟨result, after⟩ := state.step s.config edges
  cases result with
  | error e => rfl
  | ok outcome => rfl

/-- Asking for the configuration changes nothing. -/
theorem left_of_asksConfig {command : SessionCommand α} (asks : command.AsksConfig) :
    (s.exchange command).left = s := by
  cases command with
  | config => rfl
  | stepFlat state edges => rw [exchange_stepFlat]
  | _ => exact asks.elim

/-- The configuration for graphs to come is the one that was set last. -/
theorem config_after (s : Session α γ τ) (commands : List (SessionCommand α)) :
    (s.after commands).config = commands.foldl SessionCommand.configAfter s.config := by
  induction commands generalizing s with
  | nil => rfl
  | cons command rest ih => rw [after, ih, config_exchange, List.foldl_cons]

/-- As long as no graph is loaded, an exchange does not bring out a difference in the
configuration. -/
theorem Alike.sameButConfig_exchange (alike : s.Alike 0 True t) {command : SessionCommand α}
    (unreplaced : (t.exchange command).flag? = none) :
    (s.exchange command).SameButConfig (t.exchange command) ∧
      (s.exchange command).left.Alike 0 True (t.exchange command).left := by
  by_cases asks : command.AsksConfig
  · have left : (s.exchange command).left.Alike 0 True (t.exchange command).left := by
      rwa [left_of_asksConfig asks, left_of_asksConfig asks]
    exact ⟨⟨rfl, absurd asks, left.eq_setConfig⟩, left⟩
  · have unread : ¬ (t.exchange command).ReadsConfig := by
      intro reads
      exact Exchange.flag?_ne_none_of_readsConfig reads asks unreplaced
    have step := alike.exchange command fun reads => absurd reads unread
    rw [SessionCommand.shift_zero] at step
    have left := step.left.mono Or.inl
    refine ⟨⟨rfl, fun _ => ?_, left.eq_setConfig⟩, left⟩
    rw [step.answer fun _ => trivial, SessionAnswer.shift_zero]

theorem Alike.sameButConfig (alike : s.Alike 0 True t) {commands : List (SessionCommand α)}
    (unreplaced : ∀ x ∈ t.exchanges commands, x.flag? = none) :
    List.Forall₂ Exchange.SameButConfig (s.exchanges commands) (t.exchanges commands) := by
  induction commands generalizing s t with
  | nil => exact .nil
  | cons command rest ih =>
      rw [exchanges, List.forall_mem_cons] at unreplaced
      obtain ⟨first, left⟩ := alike.sameButConfig_exchange unreplaced.1
      exact .cons first (ih left unreplaced.2)

/-- Whichever configuration a session is given, it goes on in the same way until another graph is
loaded. Only steps of flat states are taken under the new configuration at once, and these leave the
session as it is. -/
theorem setConfig_unheard (s : Session α γ τ) (c₁ c₂ : Config α)
    (commands : List (SessionCommand α))
    (unreplaced : ∀ x ∈ (s.setConfig c₂).exchanges commands, x.flag? = none) :
    List.Forall₂ Exchange.SameButConfig ((s.setConfig c₁).exchanges commands)
        ((s.setConfig c₂).exchanges commands) ∧
      ∀ (c : Config α) (state : FlatState α) (edges : List Nat),
        let last := (s.setConfig c).after commands
        last.exchange (.stepFlat state edges) =
          ⟨.stepFlat state edges,
            .ofStep (state.step (commands.foldl SessionCommand.configAfter c) edges), last⟩ := by
  refine ⟨(alike_setConfig s c₁ c₂).sameButConfig unreplaced, ?_⟩
  intro c state edges last
  rw [exchange_stepFlat, config_after]
  rfl

end Commands

/-- A graph whose one edge is stretched. -/
def strained : Description Float := ⟨[⟨"a", ⟨0, 0⟩⟩, ⟨"b", ⟨1000, 0⟩⟩], [⟨0, 1, false⟩]⟩

/-- A configuration that differs from the standard one in pace, force and display. -/
def hurried : Config Float :=
  { Config.standard with
    springStiffness := 3
    stepsPerFrame := 1
    maxIterations := 2
    initialLayout := .staggered
    viewport := ⟨0, 0, 1, 1⟩ }

/-- Commands to a session whose graph stays loaded; the one to load another is refused. -/
def waiting : List (SessionCommand Float) :=
  [.nextFrame, .load ⟨[], [⟨0, 0, false⟩]⟩, .config, .settle, .moveVertex ⟨1⟩ ⟨7, 7⟩, .display,
    .setConfig .standard, .stepFlat ⟨#[0, 0], #[1, 2]⟩ [], .cancel, .nextFrame]

theorem setConfig_unheard_strained :
    let s := (new .standard : PlainSession Float).after [.load strained]
    (∀ x ∈ (s.setConfig hurried).exchanges waiting, x.flag? = none) ∧
      List.Forall₂ Exchange.SameButConfig ((s.setConfig .standard).exchanges waiting)
        ((s.setConfig hurried).exchanges waiting) ∧
      ∀ (c : Config Float) (state : FlatState Float) (edges : List Nat),
        let last := (s.setConfig c).after waiting
        last.exchange (.stepFlat state edges) =
          ⟨.stepFlat state edges,
            .ofStep (state.step (waiting.foldl SessionCommand.configAfter c) edges), last⟩ := by
  intro s
  have unreplaced : ∀ x ∈ (s.setConfig hurried).exchanges waiting, x.flag? = none := by
    decide +kernel
  exact ⟨unreplaced, setConfig_unheard s .standard hurried waiting unreplaced⟩

end Session

end SpringLayout
