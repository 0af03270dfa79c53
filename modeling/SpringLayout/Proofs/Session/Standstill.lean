import SpringLayout.Proofs.Session.Stopping
import SpringLayout.Scalar.Binary64

/-!
Runs that are over.

A run is over when a step has settled or its flag is raised. Nothing moves it any more as long as
its graph stays loaded: `Session.over_standsStill` says what frames and settling answer from then
on, and that the run stays as it is, to the last bit.
-/

namespace SpringLayout

theorem Run.over_of_raised {α : Type} {f g : StopFlags} {r : Run α} (ended : r.isRunning f = false)
    (raised : f.isRaised r.flag = true → g.isRaised r.flag = true) : r.isRunning g = false := by
  simp only [isRunning, Bool.and_eq_false_iff, Bool.not_eq_false'] at ended ⊢
  exact ended.imp_right raised

/-- The command moves a run that is not over. -/
def SessionCommand.movesRun {α : Type} : SessionCommand α → Bool
  | .nextFrame => true
  | .settle => true
  | _ => false

/-- The exchange moved nothing of the loaded graph's run, which is over: it shows no frame and takes
no step, and settling answers whether the run came to rest. -/
structure Exchange.StandsStill {α γ τ : Type} (run : Run α) (x : Exchange α γ τ) : Prop where
  frame : x.command = .nextFrame → x.answer = .frame none
  settle : x.command = .settle → x.answer = .report ⟨0, run.settled⟩
  /-- Positions, velocities, edges and the count of frames are part of the run. -/
  stays : x.left.run = some run
  running : x.left.isRunning = false
  settled : x.left.isSettled = run.settled

namespace Session

section Over

variable {α γ τ : Type} {s : Session α γ τ} {run : Run α}

/-- The run of the loaded graph is over. -/
structure Over (run : Run α) (s : Session α γ τ) : Prop where
  loaded : s.run = some run
  ended : run.isRunning s.flags = false

theorem Over.isRunning (isOver : s.Over run) : s.isRunning = false := by
  rw [Session.isRunning, isOver.loaded]
  exact isOver.ended

theorem Over.isSettled (isOver : s.Over run) : s.isSettled = run.settled := by
  rw [Session.isSettled, isOver.loaded]

theorem over_of_isRunning (loaded : s.run = some run) (ended : s.isRunning = false) :
    s.Over run := by
  rw [Session.isRunning, loaded] at ended
  exact ⟨loaded, ended⟩

protected theorem Over.raise (isOver : s.Over run) (flag : StopFlag) : (s.raise flag).Over run where
  loaded := isOver.loaded
  ended := Run.over_of_raised isOver.ended fun raised => StopFlags.isRaised_raise raised flag

/-- A run that is over can be cancelled once more. -/
protected theorem Over.cancel (isOver : s.Over run) : s.cancel.Over run := by
  rw [Session.cancel, isOver.loaded]
  exact isOver.raise run.flag

/-- What leaves the run over stands still, unless it was to move it. -/
theorem Over.standsStill {x : Exchange α γ τ} (isOver : x.left.Over run)
    (quiet : x.command.movesRun = false) : x.StandsStill run where
  frame asked := by
    rw [asked] at quiet
    cases quiet
  settle asked := by
    rw [asked] at quiet
    cases quiet
  stays := isOver.loaded
  running := isOver.isRunning
  settled := isOver.isSettled

end Over

section Commands

variable {α γ τ : Type} [PolarScalar α] [Multigraph γ] [EntryTree α τ] {s : Session α γ τ}
  {run : Run α}

/-- No command that keeps the graph moves a run that is over. -/
theorem Over.exchange (isOver : s.Over run) {command : SessionCommand α}
    (keeps : (s.exchange command).keepsGraph = true) : (s.exchange command).StandsStill run := by
  cases command with
  | nextFrame =>
      rw [Session.exchange, exec, nextFrame_of_over isOver.loaded isOver.ended]
      refine ⟨fun _ => rfl, ?_, isOver.loaded, isOver.isRunning, isOver.isSettled⟩
      rintro ⟨⟩
  | settle =>
      rw [Session.exchange, exec, settle_of_over isOver.loaded isOver.ended]
      refine ⟨?_, fun _ => rfl, isOver.loaded, isOver.isRunning, isOver.isSettled⟩
      rintro ⟨⟩
  | load d =>
      rw [Session.exchange, exec] at keeps ⊢
      rcases load_refused_or_ok d s with ⟨e, refused⟩ | ⟨flag, after, loads⟩
      · rw [refused]
        exact isOver.standsStill rfl
      · rw [loads] at keeps
        cases keeps
  | clear => cases keeps
  | cancel => exact isOver.cancel.standsStill rfl
  | raise flag => exact (isOver.raise flag).standsStill rfl
  | setConfig config => exact Over.standsStill ⟨isOver.loaded, isOver.ended⟩ rfl
  | moveVertex v target =>
      rw [Session.exchange, exec]
      rcases moveVertex_refused_or_ok v target s with ⟨e, refused⟩ | ⟨ids, after, moves⟩
      · rw [refused]
        exact isOver.standsStill rfl
      · obtain ⟨-, source, -, rfl⟩ := moveVertex_ok moves
        rw [moves]
        exact Over.standsStill ⟨isOver.loaded, isOver.ended⟩ rfl
  | stepFlat state edges =>
      rw [Session.exchange, exec]
      split
      · exact isOver.standsStill rfl
      · exact isOver.standsStill rfl
  | _ => exact isOver.standsStill rfl

/-- A run that is over stands still as long as its graph stays loaded. -/
theorem over_standsStill (loaded : s.run = some run) (ended : s.isRunning = false)
    (commands : List (SessionCommand α))
    (keep : ∀ x ∈ s.exchanges commands, x.keepsGraph = true) :
    ∀ x ∈ s.exchanges commands, x.StandsStill run := by
  induction commands generalizing s with
  | nil => exact fun x mem => nomatch mem
  | cons command rest ih =>
      rw [exchanges, List.forall_mem_cons] at keep ⊢
      have still := (over_of_isRunning loaded ended).exchange keep.1
      exact ⟨still, ih still.stays still.running keep.2⟩

end Commands

/-- A graph of one vertex. -/
def lonely : Description Float := ⟨[⟨"a", ⟨3, 4⟩⟩], []⟩

/-- A graph of one vertex with an edge to another. -/
def astray : Description Float := ⟨[⟨"a", ⟨3, 4⟩⟩], [⟨0, 1, false⟩]⟩

/-- A session whose graph came to rest with its first frame, and was cancelled after that. -/
def rested : PlainSession Float := (new .standard).after [.load lonely, .nextFrame, .cancel]

/-- Everything that can be asked of a session without loading or clearing a graph. -/
def idleCommands : List (SessionCommand Float) :=
  [.nextFrame, .settle, .setConfig .standard, .moveVertex ⟨0⟩ ⟨7, 7⟩, .raise ⟨0⟩, .load astray,
    .cancel, .display, .settle]

theorem over_standsStill_rested :
    ∃ run, rested.run = some run ∧ run.settled = true ∧ rested.isRunning = false ∧
      (∀ x ∈ rested.exchanges idleCommands, x.keepsGraph = true) ∧
        ∀ x ∈ rested.exchanges idleCommands, x.StandsStill run := by
  have isLoaded : rested.run.isSome = true := by decide +kernel
  have settled : rested.isSettled = true := by decide +kernel
  have ended : rested.isRunning = false := by decide +kernel
  have keep : ∀ x ∈ rested.exchanges idleCommands, x.keepsGraph = true := by decide +kernel
  obtain ⟨run, loaded⟩ := Option.isSome_iff_exists.mp isLoaded
  rw [isSettled, loaded] at settled
  exact ⟨run, loaded, settled, ended, keep, over_standsStill loaded ended idleCommands keep⟩

end Session

end SpringLayout
