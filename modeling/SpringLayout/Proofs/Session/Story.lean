import SpringLayout.Proofs.Graph.Checks
import SpringLayout.Proofs.Session.Operations

/-!
The story of a session, told by its commands and answers alone.

`Happening.of` reads off a command and its answer what happened, and a `Story` remembers from that
the present configuration and, of the loaded graph, its description, the configuration it was loaded
under and the moves by hand since all vertices were last shown anew.

`Session.Turn` says what becomes of a session with each happening. Every command is one turn
(`Session.turn_exec`), so what holds of a new session and no turn breaks holds of every reachable
session and its story (`Session.told_keeps`).
-/

namespace SpringLayout

/-- What an answered command tells to have happened. -/
inductive Happening (α : Type) where
  | nothing
  | configured (config : Config α)
  | loaded (description : Description α)
  | cleared
  /-- All vertices were shown at new places. -/
  | shown
  | moved (vertex : VertexId) (target : Vec α)

/-- What happened with a command, by its answer. A refused command tells of nothing. -/
def Happening.of {α : Type} : SessionCommand α → SessionAnswer α → Happening α
  | .setConfig config, _ => .configured config
  | .load d, .loaded _ => .loaded d
  | .clear, _ => .cleared
  | .nextFrame, .frame (some _) => .shown
  | .settle, .report report => if 0 < report.iterations then .shown else .nothing
  | .moveVertex v target, .edges _ => .moved v target
  | _, _ => .nothing

/-- A graph that was loaded, and what happened to it since. -/
structure Loaded (α : Type) where
  graph : Description α
  /-- The configuration at the time of loading. -/
  config : Config α
  /-- The moves by hand since all vertices were last shown anew, the latest first. -/
  moves : List (VertexId × Vec α)

/-- What the happenings so far tell of a session. -/
structure Story (α : Type) where
  config : Config α
  loaded : Option (Loaded α)

namespace Story

variable {α : Type}

/-- Nothing has happened yet. -/
def opening (config : Config α) : Story α := ⟨config, none⟩

/-- The story with one more happening. -/
def next (st : Story α) : Happening α → Story α
  | .nothing => st
  | .configured config => { st with config := config }
  | .loaded d => { st with loaded := some ⟨d, st.config, []⟩ }
  | .cleared => { st with loaded := none }
  | .shown => { st with loaded := st.loaded.map fun l => { l with moves := [] } }
  | .moved v target =>
    { st with loaded := st.loaded.map fun l => { l with moves := (v, target) :: l.moves } }

/-- How many vertices the loaded graph has, and none where no graph is loaded. -/
def vertexCount (st : Story α) : Nat :=
  match st.loaded with
  | some l => l.graph.vertexCount
  | none => 0

/-- The edges of the loaded graph in order. -/
def edges (st : Story α) : List Edge :=
  match st.loaded with
  | some l => l.graph.edges.map EdgeEntry.edge
  | none => []

end Story

namespace Session

variable {α γ τ : Type} [PolarScalar α] [Multigraph γ] [EntryTree α τ] {s : Session α γ τ}

/-! ### Turns -/

/-- What becomes of a session with a happening. -/
inductive Turn (s : Session α γ τ) : Happening α → Session α γ τ → Prop where
  | idle : Turn s .nothing s
  | raise (flag : StopFlag) : Turn s .nothing (s.raise flag)
  | configure (config : Config α) : Turn s (.configured config) (s.setConfig config)
  | load {d : Description α} {flag : StopFlag} {after : Session α γ τ} :
      s.load d = (.ok flag, after) → Turn s (.loaded d) after
  | clear : Turn s .cleared s.clear
  /-- A running run takes one step or more and is shown. -/
  | advance {run : Run α} {limit steps : Nat} {settled : Bool} (frames : UInt32) :
      s.run = some run → run.isRunning s.flags = true → 0 < steps →
      Simulation.Advance run.config run.simulation limit steps settled →
      Turn s .shown (s.showRun { run.moved steps settled with frames := frames })
  | move {v : VertexId} {target : Vec α} {ids : List EdgeId} {after : Session α γ τ} :
      s.moveVertex v target = (.ok ids, after) → Turn s (.moved v target) after

theorem Turn.runValid {h : Happening α} {after : Session α γ τ} (turn : Turn s h after)
    (valid : s.RunValid) : after.RunValid := by
  cases turn with
  | idle => exact valid
  | raise flag => exact valid
  | configure config => exact valid
  | load loads =>
      obtain ⟨simulation, adjacency, started, -, -, rfl⟩ := load_ok loads
      rintro _ ⟨⟩
      exact (Simulation.startsFrom_of_ofDescription started).valid
  | clear => exact fun run loaded => nomatch loaded
  | advance frames loaded running pos row =>
      rintro _ ⟨⟩
      exact (valid _ loaded).stepped _ _
  | move moves =>
      obtain ⟨-, source, -, rfl⟩ := moveVertex_ok moves
      exact valid

/-! ### Every command is a turn -/

theorem nextFrame_shows (valid : s.RunValid) {run : Run α} (loaded : s.run = some run)
    (running : run.isRunning s.flags = true) :
    ∃ frame after, s.nextFrame = (.ok (some frame), after) ∧ Turn s .shown after := by
  obtain ⟨steps, settled, shows, row⟩ := nextFrame_of_running valid loaded running
  exact ⟨_, _, shows, .advance _ loaded running (row.pos run.stepsPerFrame_pos) row⟩

theorem turn_nextFrame (valid : s.RunValid) :
    Turn s (.of .nextFrame (s.exec .nextFrame).1) (s.exec .nextFrame).2 := by
  rw [exec]
  cases loaded : s.run with
  | none =>
      rw [nextFrame_of_none loaded]
      exact .idle
  | some run =>
      cases running : run.isRunning s.flags with
      | false =>
          rw [nextFrame_of_over loaded running]
          exact .idle
      | true =>
          obtain ⟨frame, after, shows, turn⟩ := nextFrame_shows valid loaded running
          rw [shows]
          exact turn

theorem turn_settle (valid : s.RunValid) :
    Turn s (.of .settle (s.exec .settle).1) (s.exec .settle).2 := by
  rw [exec]
  cases loaded : s.run with
  | none =>
      rw [settle_of_none loaded]
      exact .idle
  | some run =>
      cases running : run.isRunning s.flags with
      | false =>
          rw [settle_of_over loaded running]
          exact .idle
      | true =>
          obtain ⟨steps, settled, ends, row⟩ := settle_of_running valid loaded running
          rw [ends]
          cases steps with
          | zero => exact .idle
          | succ steps => exact .advance run.frames loaded running (Nat.succ_pos steps) row

/-- Every command is one turn. -/
theorem turn_exec (valid : s.RunValid) (command : SessionCommand α) :
    Turn s (.of command (s.exec command).1) (s.exec command).2 := by
  cases command with
  | setConfig config => exact .configure config
  | load d =>
      rw [exec]
      rcases load_refused_or_ok d s with ⟨e, refused⟩ | ⟨flag, after, loads⟩
      · rw [refused]
        exact .idle
      · rw [loads]
        exact .load loads
  | cancel =>
      change Turn s .nothing s.cancel
      unfold cancel
      split
      · exact .raise _
      · exact .idle
  | raise flag => exact .raise flag
  | clear => exact .clear
  | nextFrame => exact turn_nextFrame valid
  | settle => exact turn_settle valid
  | moveVertex v target =>
      rw [exec]
      rcases moveVertex_refused_or_ok v target s with ⟨e, refused⟩ | ⟨ids, after, moves⟩
      · rw [refused]
        exact .idle
      · rw [moves]
        exact .move moves
  | stepFlat state edges =>
      rw [exec]
      split
      · exact .idle
      · exact .idle
  | _ => exact .idle

/-! ### Reachable sessions -/

/-- A session and its story after some commands in a row. -/
def perform (st : Story α) (s : Session α γ τ) : List (SessionCommand α) → Story α × Session α γ τ
  | [] => (st, s)
  | command :: rest =>
    perform (st.next (.of command (s.exec command).1)) (s.exec command).2 rest

variable (γ τ) in
/-- The session that some commands make of a new one, and its story. -/
def told (config : Config α) (commands : List (SessionCommand α)) : Story α × Session α γ τ :=
  perform (.opening config) (new config) commands

theorem perform_keeps {P : Story α → Session α γ τ → Prop}
    (kept : ∀ {st s h s'}, Turn s h s' → P st s → P (st.next h) s')
    (commands : List (SessionCommand α)) {st : Story α} (valid : s.RunValid) (holds : P st s) :
    P (perform st s commands).1 (perform st s commands).2 := by
  induction commands generalizing st s with
  | nil => exact holds
  | cons command rest ih =>
      have turn := turn_exec valid command
      exact ih (turn.runValid valid) (kept turn holds)

/-- What holds of a new session and no turn breaks, holds of every reachable session. -/
theorem told_keeps {P : Story α → Session α γ τ → Prop} {config : Config α}
    (opening : P (.opening config) (new config))
    (kept : ∀ {st s h s'}, Turn s h s' → P st s → P (st.next h) s')
    (commands : List (SessionCommand α)) :
    P (told γ τ config commands).1 (told γ τ config commands).2 :=
  perform_keeps kept commands (fun _ loaded => nomatch loaded) opening

end Session

end SpringLayout
