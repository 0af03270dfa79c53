import SpringLayout.Proofs.Session.Loading
import SpringLayout.Proofs.Session.Stopping

/-!
Sessions that answer alike.

`Session.Alike n same s t` says that `s` and `t` have the same graph and the same run up to the
numbering of its flag, of which `s` has issued `n` more, and that all vertices are displayed and hit
at the same places as far as `same` holds. The configurations for graphs to come may differ.

Whatever is asked of both is answered alike, unless the answer tells of places that differ, and
leaves them alike (`Session.Alike.exchange`). What shows all vertices anew shows them at the same
places.
-/

namespace SpringLayout

/-! ### Numbering flags further on -/

section Numbering

variable {α : Type}

/-- The run with its flag numbered `n` further. -/
def Run.shift (n : Nat) (r : Run α) : Run α := { r with flag := r.flag.shift n }

/-- The command with the flag it names numbered `n` further. -/
def SessionCommand.shift (n : Nat) : SessionCommand α → SessionCommand α
  | .raise flag => .raise (flag.shift n)
  | command => command

/-- The answer with the flag it gives numbered `n` further. -/
def SessionAnswer.shift (n : Nat) : SessionAnswer α → SessionAnswer α
  | .loaded flag => .loaded (flag.shift n)
  | answer => answer

@[simp] theorem Run.shift_zero (r : Run α) : r.shift 0 = r := rfl

@[simp] theorem SessionCommand.shift_zero (command : SessionCommand α) :
    command.shift 0 = command := by
  cases command with
  | _ => rfl

@[simp] theorem SessionAnswer.shift_zero (answer : SessionAnswer α) : answer.shift 0 = answer := by
  cases answer with
  | _ => rfl

@[simp] theorem SessionCommand.configAfter_shift (n : Nat) (command : SessionCommand α)
    (config : Config α) : (command.shift n).configAfter config = command.configAfter config := by
  cases command with
  | _ => rfl

theorem SessionAnswer.ofExcept_eq_shift {β : Type} {n : Nat} {answer : β → SessionAnswer α}
    (unnumbered : ∀ b, (answer b).shift n = answer b) {result result' : Except LayoutError β}
    (same : result = result') : ofExcept answer result = (ofExcept answer result').shift n := by
  subst same
  cases result with
  | error e => rfl
  | ok b => exact (unnumbered b).symm

variable {n : Nat} {f g : StopFlags}

theorem Run.isRunning_shift (extend : f.Extends n g) (r : Run α) :
    (r.shift n).isRunning f = r.isRunning g := by
  rw [isRunning, isRunning, shift, extend.isRaised]

end Numbering

section Numbering

variable {α : Type} [PolarScalar α] {n : Nat} {f g : StopFlags}

theorem Run.nextFrame_shift (extend : f.Extends n g) (r : Run α) :
    (r.shift n).nextFrame f = ((r.nextFrame g).1, (r.nextFrame g).2.shift n) := by
  have same : (r.shift n).simulation.advance (r.shift n).config 0 (r.shift n).stepsPerFrame =
      r.simulation.advance r.config 0 r.stepsPerFrame := rfl
  unfold nextFrame
  rw [isRunning_shift extend, same]
  obtain ⟨answer, simulation⟩ := r.simulation.advance r.config 0 r.stepsPerFrame
  split
  · cases answer with
    | error e => rfl
    | ok report => rfl
  · rfl

theorem Run.finish_shift (extend : f.Extends n g) (r : Run α) :
    (r.shift n).finish f = ((r.finish g).1, (r.finish g).2.shift n) := by
  have same : (r.shift n).simulation.run (r.shift n).config = r.simulation.run r.config := rfl
  unfold finish
  rw [isRunning_shift extend, same]
  obtain ⟨answer, simulation⟩ := r.simulation.run r.config
  split
  · cases answer with
    | error e => rfl
    | ok report => rfl
  · rfl

end Numbering

/-! ### What is asked and shown -/

section Kinds

variable {α γ τ : Type}

/-- The answer tells where vertices are displayed. -/
def SessionCommand.SeesPlaces : SessionCommand α → Prop
  | .pick _ _ => True
  | .display => True
  | _ => False

/-- All vertices were shown at new places. -/
def Exchange.Publishes (x : Exchange α γ τ) : Prop :=
  match x.command, x.answer with
  | .load _, .loaded _ => True
  | .nextFrame, .frame (some _) => True
  | .settle, .report report => 0 < report.iterations
  | _, _ => False

/-- The configuration for graphs to come was used or told. -/
def Exchange.ReadsConfig (x : Exchange α γ τ) : Prop :=
  match x.command, x.answer with
  | .load _, .loaded _ => True
  | .config, _ => True
  | .stepFlat _ _, _ => True
  | _, _ => False

end Kinds

namespace Session

/-! ### Alike sessions -/

/-- Both sessions have the same graph and the same run, of which `s` issued the flag `n` flags
later, and show the same places as far as `same` holds. -/
structure Alike {α γ τ : Type} (n : Nat) (same : Prop) (s t : Session α γ τ) : Prop where
  run : s.run = t.run.map (Run.shift n)
  flags : s.flags.Extends n t.flags
  adjacency : s.adjacency = t.adjacency
  names : s.names = t.names
  display_size : s.display.size = t.display.size
  display : same → s.display = t.display
  index : same → s.index = t.index

namespace Alike

section Flags

variable {α γ τ : Type} {n : Nat} {same : Prop} {s t : Session α γ τ}

theorem mono {same' : Prop} (alike : s.Alike n same t) (less : same' → same) :
    s.Alike n same' t :=
  { alike with
    display := fun h => alike.display (less h)
    index := fun h => alike.index (less h) }

theorem run_eq (alike : s.Alike 0 same t) : s.run = t.run := by
  rw [alike.run]
  cases t.run with
  | none => rfl
  | some run => rw [Option.map_some, Run.shift_zero]

/-- Where nothing is shown anew, the places are the same as far as they were. -/
theorem unshown {shown : Prop} (alike : s.Alike n same t) (silent : ¬ shown) :
    s.Alike n (same ∨ shown) t :=
  alike.mono fun either => either.resolve_right silent

theorem isRunning (alike : s.Alike n same t) : s.isRunning = t.isRunning := by
  rw [Session.isRunning, Session.isRunning, alike.run]
  cases t.run with
  | none => rfl
  | some run => exact run.isRunning_shift alike.flags

theorem isSettled (alike : s.Alike n same t) : s.isSettled = t.isSettled := by
  rw [Session.isSettled, Session.isSettled, alike.run]
  cases t.run with
  | none => rfl
  | some run => rfl

protected theorem raise (alike : s.Alike n same t) (flag : StopFlag) :
    (s.raise (flag.shift n)).Alike n same (t.raise flag) :=
  { alike with flags := alike.flags.raise flag }

/-- A flag issued before all that `t` knows of is none of its business. -/
theorem raise_before (alike : s.Alike n same t) {flag : StopFlag} (before : flag.number < n) :
    (s.raise flag).Alike n same t :=
  { alike with flags := alike.flags.raise_before before }

protected theorem cancel (alike : s.Alike n same t) : s.cancel.Alike n same t.cancel := by
  unfold cancel
  rw [alike.run]
  cases t.run with
  | none => exact alike
  | some run => exact alike.raise run.flag

protected theorem setConfig (alike : s.Alike n same t) (config config' : Config α) :
    (s.setConfig config).Alike n same (t.setConfig config') :=
  { alike with }

protected theorem carry [EntryTree α τ] (alike : s.Alike n same t) (run : Run α)
    (places : Option (Array (Vec α))) :
    (s.carry (run.shift n) places).Alike n (same ∨ places.isSome = true) (t.carry run places) := by
  cases places with
  | none =>
      have carried : (s.carry (run.shift n) none).Alike n same (t.carry run none) :=
        { alike with run := rfl }
      exact carried.unshown Bool.false_ne_true
  | some places =>
      exact
        { alike with
          run := rfl
          display_size := rfl
          display := fun _ => rfl
          index := fun _ => rfl }

protected theorem clear [Multigraph γ] [EntryTree α τ] (alike : s.Alike n same t) :
    s.clear.Alike n same t.clear where
  run := rfl
  flags := alike.cancel.flags
  adjacency := rfl
  names := rfl
  display_size := rfl
  display _ := rfl
  index _ := rfl

end Flags

section Moves

variable {α γ τ : Type} [Multigraph γ] [EntryTree α τ] {n : Nat} {same : Prop} {s t : Session α γ τ}

/-- A move by hand is answered alike, and seen alike as far as the places were the same before. -/
protected theorem moveVertex (alike : s.Alike n same t) (v : VertexId) (target : Vec α) :
    (s.moveVertex v target).1 = (t.moveVertex v target).1 ∧
      (s.moveVertex v target).2.Alike n same (t.moveVertex v target).2 := by
  unfold Session.moveVertex
  rw [alike.adjacency]
  cases t.adjacency.incident v with
  | error e => exact ⟨rfl, alike⟩
  | ok ids =>
      have size := alike.display_size
      dsimp only
      cases before : t.display[v.index]? with
      | none =>
          have outside : s.display[v.index]? = none := by
            rw [Array.getElem?_eq_none_iff] at before ⊢
            rwa [size]
          rw [outside, vertexCount, vertexCount, alike.adjacency]
          exact ⟨rfl, alike⟩
      | some source =>
          have inside : v.index < s.display.size := by
            rw [size]
            exact (Array.getElem?_eq_some_iff.mp before).1
          obtain ⟨source', before'⟩ : ∃ source', s.display[v.index]? = some source' :=
            ⟨_, Array.getElem?_eq_getElem inside⟩
          rw [before']
          refine ⟨rfl, ?_⟩
          dsimp only
          refine { alike with adjacency := rfl, display_size := ?_, display := ?_, index := ?_ }
          · rwa [Array.size_setIfInBounds, Array.size_setIfInBounds]
          · intro h
            rw [alike.display h]
          · intro h
            rw [alike.display h, before] at before'
            cases before'
            rw [alike.index h]

/-- A session in which a vertex was moved by hand is alike to what it was but for the places. -/
theorem moveVertex_left (alike : s.Alike n same t) (v : VertexId) (target : Vec α) :
    (s.moveVertex v target).2.Alike n False t := by
  rcases moveVertex_refused_or_ok v target s with ⟨e, refused⟩ | ⟨ids, after, moves⟩
  · rw [refused]
    exact alike.mono False.elim
  · obtain ⟨-, source, -, rfl⟩ := moveVertex_ok moves
    rw [moves]
    exact
      { alike with
        display_size := Array.size_setIfInBounds.trans alike.display_size
        display := False.elim
        index := False.elim }

variable [Scalar α]

/-- Under one configuration a graph is loaded alike, whatever was loaded before. -/
theorem of_load {d : Description α} {after after' : Session α γ τ} {flag flag' : StopFlag}
    (config : s.config = t.config) (flags : s.cancel.flags.Extends n t.cancel.flags)
    (loads : s.load d = (.ok flag, after)) (loads' : t.load d = (.ok flag', after')) :
    flag = flag'.shift n ∧ after.Alike n True after' := by
  obtain ⟨simulation, adjacency, started, built, rfl, rfl⟩ := load_ok loads
  obtain ⟨simulation', adjacency', started', built', rfl, rfl⟩ := load_ok loads'
  rw [config] at started
  cases started.symm.trans started'
  cases built.symm.trans built'
  refine ⟨flags.issue_fst, ?_⟩
  rw [config, flags.issue_fst]
  exact ⟨rfl, flags.issue, rfl, rfl, rfl, fun _ => rfl, fun _ => rfl⟩

/-- Under one configuration a graph is loaded alike, and refused alike under any. -/
protected theorem load (alike : s.Alike n same t) (d : Description α)
    (config : ∀ flag, (t.load d).1 = .ok flag → s.config = t.config) :
    (∃ e, s.load d = (.error e, s) ∧ t.load d = (.error e, t)) ∨
      ∃ flag after after', s.load d = (.ok (flag.shift n), after) ∧
        t.load d = (.ok flag, after') ∧ after.Alike n True after' := by
  rcases s.load_cases d with ⟨k, entry, first, refused⟩ | ⟨within, flag, after, loads⟩
  · rcases t.load_cases d with ⟨k', entry', first', refused'⟩ | ⟨within, -⟩
    · obtain ⟨rfl, rfl⟩ := first.unique first'
      exact Or.inl ⟨_, refused, refused'⟩
    · exact absurd within first.not_edgesWithin
  · rcases t.load_cases d with ⟨k', entry', first', -⟩ | ⟨-, flag', after', loads'⟩
    · exact absurd within first'.not_edgesWithin
    · have same : s.config = t.config := config flag' (by rw [loads'])
      obtain ⟨rfl, alike'⟩ := of_load same alike.cancel.flags loads loads'
      exact Or.inr ⟨flag', after, after', loads, loads', alike'⟩

end Moves

section Motion

variable {α γ τ : Type} [PolarScalar α] [EntryTree α τ] {n : Nat} {same : Prop}
  {s t : Session α γ τ}

protected theorem nextFrame (alike : s.Alike n same t) :
    s.nextFrame.1 = t.nextFrame.1 ∧
      s.nextFrame.2.Alike n (same ∨ (framePlaces t.nextFrame.1).isSome = true) t.nextFrame.2 := by
  cases loaded : t.run with
  | none =>
      have unloaded : s.run = none := by rw [alike.run, loaded, Option.map_none]
      rw [nextFrame_of_none loaded, nextFrame_of_none unloaded]
      exact ⟨rfl, alike.unshown Bool.false_ne_true⟩
  | some run =>
      have loaded' : s.run = some (run.shift n) := by rw [alike.run, loaded, Option.map_some]
      rw [nextFrame_of_some loaded, nextFrame_of_some loaded', run.nextFrame_shift alike.flags]
      exact ⟨rfl, alike.carry _ _⟩

protected theorem settle (alike : s.Alike n same t) :
    s.settle.1 = t.settle.1 ∧
      s.settle.2.Alike n (same ∨ ∃ report, t.settle.1 = .ok report ∧ 0 < report.iterations)
        t.settle.2 := by
  cases loaded : t.run with
  | none =>
      have unloaded : s.run = none := by rw [alike.run, loaded, Option.map_none]
      rw [settle_of_none loaded, settle_of_none unloaded]
      refine ⟨rfl, alike.unshown ?_⟩
      rintro ⟨report, ⟨⟩, -⟩
  | some run =>
      have loaded' : s.run = some (run.shift n) := by rw [alike.run, loaded, Option.map_some]
      rw [settle_of_some loaded, settle_of_some loaded', run.finish_shift alike.flags]
      refine ⟨rfl, (alike.carry _ _).mono (Or.imp_right ?_)⟩
      rintro ⟨report, ends, moves⟩
      dsimp only at ends ⊢
      rw [ends, reportPlaces, if_pos moves]
      rfl

end Motion

end Alike

end Session

/-! ### Every command -/

/-- The exchanges are alike: the answers are the same, unless they tell of places that differ, and
so are the sessions that are left. -/
structure Exchange.Alike {α γ τ : Type} (n : Nat) (same : Prop) (x y : Exchange α γ τ) : Prop where
  command : x.command = y.command.shift n
  answer : (y.command.SeesPlaces → same) → x.answer = y.answer.shift n
  left : x.left.Alike n (same ∨ y.Publishes) y.left

namespace Session

/-- What leaves both sessions as they are is alike if it is answered alike. -/
theorem Alike.exchange_of_unchanged {α γ τ : Type} {n : Nat} {same : Prop} {s t : Session α γ τ}
    {x y : Exchange α γ τ} (alike : s.Alike n same t) (command : x.command = y.command.shift n)
    (left : x.left = s) (left' : y.left = t) (silent : ¬ y.Publishes)
    (answer : (y.command.SeesPlaces → same) → x.answer = y.answer.shift n) : x.Alike n same y := by
  refine ⟨command, answer, ?_⟩
  rw [left, left']
  exact alike.unshown silent

section Publications

variable {α γ τ : Type} [PolarScalar α] [Multigraph γ] [EntryTree α τ] {t : Session α γ τ}

theorem framePlaces_of_publishes (publishes : (t.exchange .nextFrame).Publishes) :
    (framePlaces t.nextFrame.1).isSome = true := by
  rw [exchange, exec, SessionAnswer.ofAttempt] at publishes
  revert publishes
  rcases t.nextFrame.1 with e | shown
  · exact False.elim
  · cases shown with
    | none => exact False.elim
    | some frame => exact fun _ => rfl

theorem settle_of_publishes (publishes : (t.exchange .settle).Publishes) :
    ∃ report, t.settle.1 = .ok report ∧ 0 < report.iterations := by
  rw [exchange, exec, SessionAnswer.ofAttempt] at publishes
  revert publishes
  cases t.settle.1 with
  | error e => exact False.elim
  | ok report => exact fun moved => ⟨report, rfl, moved⟩

end Publications

section Commands

variable {α γ τ : Type} [PolarScalar α] [Multigraph γ] [EntryTree α τ] {n : Nat} {same : Prop}
  {s t : Session α γ τ}

theorem Alike.exchange_load (alike : s.Alike n same t) (d : Description α)
    (config : (t.exchange (.load d)).ReadsConfig → s.config = t.config) :
    (s.exchange (.load d)).Alike n same (t.exchange (.load d)) := by
  have same_config : ∀ flag, (t.load d).1 = .ok flag → s.config = t.config := by
    intro flag loads
    refine config ?_
    rw [Session.exchange, exec, SessionAnswer.ofAttempt, loads]
    trivial
  rw [Session.exchange, Session.exchange, exec, exec]
  rcases alike.load d same_config with ⟨e, refused, refused'⟩ |
    ⟨flag, after, after', loads, loads', alike'⟩
  · rw [refused, refused']
    exact alike.exchange_of_unchanged rfl rfl rfl id fun _ => rfl
  · rw [loads, loads']
    exact ⟨rfl, fun _ => rfl, alike'.mono fun _ => trivial⟩

theorem Alike.exchange_stepFlat (alike : s.Alike n same t) (state : FlatState α)
    (edges : List Nat) (config : s.config = t.config) :
    (s.exchange (.stepFlat state edges)).Alike n same (t.exchange (.stepFlat state edges)) := by
  rw [Session.exchange, Session.exchange, exec, exec, Session.stepFlat, Session.stepFlat, config]
  split
  · exact alike.exchange_of_unchanged rfl rfl rfl id fun _ => rfl
  · exact alike.exchange_of_unchanged rfl rfl rfl id fun _ => rfl

/-- Alike sessions answer a command alike, and stay alike. -/
theorem Alike.exchange (alike : s.Alike n same t) (command : SessionCommand α)
    (config : (t.exchange command).ReadsConfig → s.config = t.config) :
    (s.exchange (command.shift n)).Alike n same (t.exchange command) := by
  cases command with
  | setConfig c => exact ⟨rfl, fun _ => rfl, (alike.setConfig c c).unshown id⟩
  | config =>
      refine alike.exchange_of_unchanged rfl rfl rfl id fun _ => ?_
      exact congrArg SessionAnswer.config (config trivial)
  | load d => exact alike.exchange_load d config
  | cancel => exact ⟨rfl, fun _ => rfl, alike.cancel.unshown id⟩
  | raise flag => exact ⟨rfl, fun _ => rfl, (alike.raise flag).unshown id⟩
  | clear => exact ⟨rfl, fun _ => rfl, alike.clear.unshown id⟩
  | nextFrame =>
      obtain ⟨answered, left⟩ := alike.nextFrame
      refine ⟨rfl, fun _ => ?_, left.mono (Or.imp_right framePlaces_of_publishes)⟩
      exact SessionAnswer.ofExcept_eq_shift (fun _ => rfl) answered
  | settle =>
      obtain ⟨answered, left⟩ := alike.settle
      refine ⟨rfl, fun _ => ?_, left.mono (Or.imp_right settle_of_publishes)⟩
      exact SessionAnswer.ofExcept_eq_shift (fun _ => rfl) answered
  | moveVertex v target =>
      obtain ⟨answered, left⟩ := alike.moveVertex v target
      refine ⟨rfl, fun _ => ?_, left.unshown id⟩
      exact SessionAnswer.ofExcept_eq_shift (fun _ => rfl) answered
  | pick p radius =>
      refine alike.exchange_of_unchanged rfl rfl rfl id fun sees => ?_
      exact congrArg (fun index => SessionAnswer.vertex (HitIndex.nearestWithin? p radius index))
        (alike.index (sees trivial))
  | display =>
      refine alike.exchange_of_unchanged rfl rfl rfl id fun sees => ?_
      exact congrArg SessionAnswer.display (alike.display (sees trivial))
  | name v =>
      refine alike.exchange_of_unchanged rfl rfl rfl id fun _ => ?_
      exact congrArg (fun names : Array String => SessionAnswer.name names[v.index]?) alike.names
  | neighbors v =>
      refine alike.exchange_of_unchanged rfl rfl rfl id fun _ => ?_
      exact SessionAnswer.ofExcept_eq_shift (fun _ => rfl)
        (congrArg (Adjacency.neighbors · v) alike.adjacency)
  | incident v =>
      refine alike.exchange_of_unchanged rfl rfl rfl id fun _ => ?_
      exact SessionAnswer.ofExcept_eq_shift (fun _ => rfl)
        (congrArg (Adjacency.incident · v) alike.adjacency)
  | degree v =>
      refine alike.exchange_of_unchanged rfl rfl rfl id fun _ => ?_
      exact SessionAnswer.ofExcept_eq_shift (fun _ => rfl)
        (congrArg (Adjacency.degree · v) alike.adjacency)
  | endpoints e =>
      refine alike.exchange_of_unchanged rfl rfl rfl id fun _ => ?_
      exact congrArg (fun a => SessionAnswer.edge (Adjacency.edge? a e)) alike.adjacency
  | stepFlat state edges => exact alike.exchange_stepFlat state edges (config trivial)

/-! ### One configuration -/

/-- The sessions are alike, and under one configuration. -/
structure Agree {α γ τ : Type} (n : Nat) (same : Prop) (s t : Session α γ τ) : Prop
    extends s.Alike n same t where
  config : s.config = t.config

theorem Agree.mono {α γ τ : Type} {n : Nat} {same same' : Prop} {s t : Session α γ τ}
    (agree : s.Agree n same t) (less : same' → same) : s.Agree n same' t :=
  ⟨agree.toAlike.mono less, agree.config⟩

/-- Under one configuration all commands are answered alike, and leave both under one
configuration. -/
theorem Agree.exchange (agree : s.Agree n same t) (command : SessionCommand α) :
    (s.exchange (command.shift n)).Alike n same (t.exchange command) ∧
      (s.exchange (command.shift n)).left.Agree n (same ∨ (t.exchange command).Publishes)
        (t.exchange command).left := by
  have step := agree.toAlike.exchange command fun _ => agree.config
  refine ⟨step, step.left, ?_⟩
  rw [config_exchange, config_exchange, SessionCommand.configAfter_shift, agree.config]

end Commands

end Session

end SpringLayout
