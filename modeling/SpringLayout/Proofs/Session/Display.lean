import SpringLayout.Proofs.Session.Representation

/-!
Where the vertices of a session are displayed.

A vertex is displayed where it was last moved by hand since all vertices were shown, and otherwise
where the layout has it, fitted to the viewport under which the graph was loaded
(`Loaded.place?`). `Session.told_displayFollows` says so of every reachable session, and that a
command which shows nothing, moves nothing and neither loads nor clears leaves the display as it is.
-/

namespace SpringLayout

/-- Nothing of the happening is to be seen on the display. -/
def Happening.Unseen {α : Type} : Happening α → Prop
  | .nothing => True
  | .configured _ => True
  | _ => False

/-- Where a vertex of the loaded graph is to be displayed when `run` lays it out. -/
def Loaded.place? {α : Type} [Scalar α] (l : Loaded α) (run : Run α) (v : VertexId) :
    Option (Vec α) :=
  match l.moves.lookup v with
  | some target => some target
  | none => (l.config.viewport.normalize run.simulation.positions)[v.index]?

namespace Loaded

variable {α : Type} [Scalar α] (l : Loaded α) (run : Run α)

theorem place?_moved_self (v : VertexId) (target : Vec α) :
    { l with moves := (v, target) :: l.moves }.place? run v = some target := by
  rw [place?, List.lookup_cons_self]

theorem place?_moved_of_ne {v w : VertexId} (apart : w ≠ v) (target : Vec α) :
    { l with moves := (v, target) :: l.moves }.place? run w = l.place? run w := by
  rw [place?, List.lookup_cons, beq_false_of_ne apart]
  rfl

end Loaded

namespace Session

variable {α γ τ : Type} [PolarScalar α] [Multigraph γ] [EntryTree α τ] {s : Session α γ τ}

/-- The vertices of the loaded graph are displayed in their places. -/
def Displays (l : Loaded α) (run : Run α) (s : Session α γ τ) : Prop :=
  ∀ v : VertexId, v.Within l.graph.vertexCount → s.display[v.index]? = l.place? run v

omit [Multigraph γ] [EntryTree α τ] in
theorem displays_snapshot {l : Loaded α} {run : Run α} (config : run.config = l.config)
    (unmoved : l.moves = []) (shown : s.display = run.snapshot) : s.Displays l run := by
  intro v within
  rw [shown, Loaded.place?, unmoved, Run.snapshot, config]
  rfl

/-- A vertex moved by hand is displayed at its target, and the others where they were. -/
theorem Displays.move {l : Loaded α} {run : Run α} (displays : s.Displays l run)
    (size : s.display.size = l.graph.vertexCount) {v : VertexId} {target : Vec α}
    {ids : List EdgeId} {after : Session α γ τ} (moves : s.moveVertex v target = (.ok ids, after)) :
    after.Displays { l with moves := (v, target) :: l.moves } run := by
  obtain ⟨-, source, -, rfl⟩ := moveVertex_ok moves
  intro w within
  by_cases same : w = v
  · subst same
    rw [Loaded.place?_moved_self]
    exact Array.getElem?_setIfInBounds_self_of_lt (size ▸ within)
  · have apart : v.index ≠ w.index := fun index => same (congrArg VertexId.mk index.symm)
    rw [Loaded.place?_moved_of_ne _ _ same]
    exact (Array.getElem?_setIfInBounds_ne apart).trans (displays w within)

/-- What is displayed is as the story tells. -/
def Shows (st : Story α) (s : Session α γ τ) : Prop :=
  ∀ l, st.loaded = some l → ∀ run, s.run = some run → s.Displays l run

theorem Shows.turn {st : Story α} {h : Happening α} {after : Session α γ τ} (turn : Turn s h after)
    (represents : s.Represents st) (shows : Shows st s) : Shows (st.next h) after := by
  obtain ⟨config, loaded⟩ := st
  cases turn with
  | idle => exact shows
  | raise flag => exact shows
  | configure later => exact shows
  | load loads =>
      obtain ⟨simulation, adjacency, -, -, -, rfl⟩ := load_ok loads
      rintro l ⟨⟩ run ⟨⟩
      exact displays_snapshot represents.1 rfl rfl
  | clear =>
      rintro l ⟨⟩
  | @advance run limit steps settled frames ran running pos row =>
      cases loaded with
      | none =>
          rintro l ⟨⟩
      | some l =>
          obtain ⟨-, run', holds⟩ := represents
          cases holds.loaded.symm.trans ran
          rintro _ ⟨⟩ run ⟨⟩
          exact displays_snapshot holds.config rfl rfl
  | move moves =>
      cases loaded with
      | none =>
          rintro l ⟨⟩
      | some l =>
          obtain ⟨-, run', holds⟩ := represents
          rintro _ ⟨⟩ run ran
          obtain ⟨-, source, -, rfl⟩ := moveVertex_ok moves
          exact (shows l rfl run ran).move holds.display_size moves

/-- A turn that is not seen leaves the display. -/
theorem Turn.display_of_unseen {h : Happening α} {after : Session α γ τ} (turn : Turn s h after)
    (unseen : h.Unseen) : after.display = s.display := by
  cases turn with
  | idle => rfl
  | raise flag => rfl
  | configure config => rfl
  | load loads => exact unseen.elim
  | clear => exact unseen.elim
  | advance frames loaded running pos row => exact unseen.elim
  | move moves => exact unseen.elim

/-- The display is as the story tells, and nothing unseen moves it. -/
structure DisplayFollows (st : Story α) (s : Session α γ τ) : Prop where
  displays : ∀ l, st.loaded = some l →
    ∃ run, s.run = some run ∧ s.display.size = l.graph.vertexCount ∧ s.Displays l run
  unmoved : ∀ command, (Happening.of command (s.exec command).1).Unseen →
    (s.exec command).2.display = s.display

/-- The display of every reachable session is as its story tells. -/
theorem told_displayFollows (config : Config α) (commands : List (SessionCommand α)) :
    DisplayFollows (told γ τ config commands).1 (told γ τ config commands).2 := by
  have follows : (told γ τ config commands).2.Represents (told γ τ config commands).1 ∧
      Shows (told γ τ config commands).1 (told γ τ config commands).2 := by
    refine told_keeps (P := fun st s => s.Represents st ∧ Shows st s) ?_ ?_ commands
    · exact ⟨⟨rfl, blank_new config⟩, fun _ told => nomatch told⟩
    · rintro st s h after turn ⟨represents, shows⟩
      exact ⟨represents.turn turn, shows.turn turn represents⟩
  obtain ⟨represents, shows⟩ := follows
  refine ⟨?_, fun command => (turn_exec represents.runValid command).display_of_unseen⟩
  intro l told
  rcases represents.blank_or_holds with ⟨untold, -⟩ | ⟨l', run, told', holds⟩
  · rw [told] at untold
    cases untold
  · rw [told] at told'
    cases told'
    exact ⟨run, holds.loaded, holds.display_size, shows l told run holds.loaded⟩

end Session

end SpringLayout
