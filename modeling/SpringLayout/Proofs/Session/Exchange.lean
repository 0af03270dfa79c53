import SpringLayout.Proofs.Session.Story

/-!
A session as those see it who use it: command after command, each with its answer.

An `Exchange` is a command, its answer and the session that is left. `Session.exchanges` are the
exchanges of some commands in a row, and `Session.after` is the session that the last one leaves.
`Session.exchanges_eq_append_cons` takes any moment out of a row of exchanges, and
`Session.config_exchange` follows the configuration for graphs to come.
-/

namespace SpringLayout

/-- A command, its answer, and the session that is left. -/
structure Exchange (α γ τ : Type) where
  command : SessionCommand α
  answer : SessionAnswer α
  left : Session α γ τ

namespace Exchange

variable {α γ τ : Type}

/-- The graph that is loaded stays loaded: it is neither cleared nor replaced. -/
def keepsGraph (x : Exchange α γ τ) : Bool :=
  match x.command, x.answer with
  | .load _, .loaded _ => false
  | .clear, _ => false
  | _, _ => true

/-- The flag of the graph that was loaded, if one was. -/
def flag? (x : Exchange α γ τ) : Option StopFlag :=
  match x.command, x.answer with
  | .load _, .loaded flag => some flag
  | _, _ => none

end Exchange

/-- The configuration for graphs to come once the command is carried out. -/
def SessionCommand.configAfter {α : Type} (config : Config α) : SessionCommand α → Config α
  | .setConfig next => next
  | _ => config

namespace Session

variable {α γ τ : Type} [PolarScalar α] [Multigraph γ] [EntryTree α τ]

/-- One command and what comes of it. -/
def exchange (s : Session α γ τ) (command : SessionCommand α) : Exchange α γ τ :=
  ⟨command, (s.exec command).1, (s.exec command).2⟩

@[simp] theorem command_exchange (s : Session α γ τ) (command : SessionCommand α) :
    (s.exchange command).command = command := rfl

/-- The exchanges of some commands in a row. -/
def exchanges (s : Session α γ τ) : List (SessionCommand α) → List (Exchange α γ τ)
  | [] => []
  | command :: rest => s.exchange command :: (s.exchange command).left.exchanges rest

/-- The session that some commands in a row leave. -/
def after (s : Session α γ τ) : List (SessionCommand α) → Session α γ τ
  | [] => s
  | command :: rest => (s.exchange command).left.after rest

/-- Telling the story of a session changes nothing in it. -/
theorem perform_snd (st : Story α) (s : Session α γ τ) (commands : List (SessionCommand α)) :
    (perform st s commands).2 = s.after commands := by
  induction commands generalizing st s with
  | nil => rfl
  | cons command rest ih => exact ih _ _

/-- What no command breaks holds after any commands. -/
theorem after_keeps {P : Session α γ τ → Prop}
    (kept : ∀ {s : Session α γ τ} (command), P s → P (s.exchange command).left) {s : Session α γ τ}
    (holds : P s) (commands : List (SessionCommand α)) : P (s.after commands) := by
  induction commands generalizing s with
  | nil => exact holds
  | cons command rest ih => exact ih (kept command holds)

/-- An exchange among others is that of one of the commands, and the others come before it and
after it. -/
theorem exchanges_eq_append_cons {s : Session α γ τ} {commands : List (SessionCommand α)}
    {before since : List (Exchange α γ τ)} {x : Exchange α γ τ}
    (split : s.exchanges commands = before ++ x :: since) :
    ∃ earlier later, x = (s.after earlier).exchange x.command ∧
      since = x.left.exchanges later ∧ s.after commands = x.left.after later := by
  induction before generalizing s commands with
  | nil =>
      cases commands with
      | nil => cases split
      | cons command rest =>
          cases split
          exact ⟨[], rest, rfl, rfl, rfl⟩
  | cons y before ih =>
      cases commands with
      | nil => cases split
      | cons command rest =>
          obtain ⟨earlier, later, taken, rest_eq, last⟩ := ih (List.cons.inj split).2
          exact ⟨command :: earlier, later, taken, rest_eq, last⟩

/-! ### The configuration for graphs to come -/

theorem config_cancel {α γ τ : Type} (s : Session α γ τ) : s.cancel.config = s.config := by
  unfold cancel
  split
  · rfl
  · rfl

theorem config_load (d : Description α) (s : Session α γ τ) : (s.load d).2.config = s.config := by
  rcases load_refused_or_ok d s with ⟨e, refused⟩ | ⟨flag, after, loads⟩
  · rw [refused]
  · obtain ⟨simulation, adjacency, -, -, -, rfl⟩ := load_ok loads
    rw [loads]
    rfl

/-- Only a new configuration takes the place of the one before. -/
theorem config_exchange (s : Session α γ τ) (command : SessionCommand α) :
    (s.exchange command).left.config = command.configAfter s.config := by
  cases command with
  | load d => exact config_load d s
  | cancel => exact config_cancel s
  | clear => exact config_cancel s
  | nextFrame => exact (sameSetup_nextFrame s).config
  | settle => exact (sameSetup_settle s).config
  | moveVertex v target => exact (sameSetup_moveVertex v target s).config
  | stepFlat state edges =>
      rw [exchange, exec]
      split
      · rfl
      · rfl
  | _ => rfl

end Session

end SpringLayout
