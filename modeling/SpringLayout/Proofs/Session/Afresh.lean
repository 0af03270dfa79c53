import Mathlib.Data.List.Forall2
import SpringLayout.Proofs.Session.Alike

/-!
Loading a graph starts a session afresh.

A description is refused without a trace, or the session that loads it is from then on as one that
never did anything before: `Session.loadsAfresh`. All that tells them apart is the number of flags
that were issued in the past, and nothing can be done with those.
-/

namespace SpringLayout

/-! ### Commands that concern the past -/

/-- The command to a session that never issued the first `n` flags; none if it is to raise one of
these. -/
def SessionCommand.since? {α : Type} (n : Nat) : SessionCommand α → Option (SessionCommand α)
  | .raise flag => if n ≤ flag.number then some (.raise ⟨flag.number - n⟩) else none
  | command => some command

/-- The exchanges are the same, but that the first session issued `n` flags more before all that the
second issued. -/
structure Exchange.Agrees {α γ τ : Type} (n : Nat) (x y : Exchange α γ τ) : Prop where
  command : x.command = y.command.shift n
  answer : x.answer = y.answer.shift n
  left : x.left.Agree n True y.left
  running : x.left.isRunning = y.left.isRunning
  settled : x.left.isSettled = y.left.isSettled

namespace SessionCommand

variable {α : Type} {n : Nat}

theorem eq_shift_of_since? {command recent : SessionCommand α}
    (since : command.since? n = some recent) : command = recent.shift n := by
  cases command with
  | raise flag =>
      rw [since?] at since
      split at since
      · next later =>
          cases since
          rw [shift, StopFlag.shift, Nat.sub_add_cancel later]
      · cases since
  | _ =>
      cases since
      rfl

theorem raise_of_since? {command : SessionCommand α} (past : command.since? n = none) :
    ∃ flag, command = .raise flag ∧ flag.number < n := by
  cases command with
  | raise flag =>
      rw [since?] at past
      split at past
      · cases past
      · next earlier => exact ⟨flag, rfl, Nat.lt_of_not_le earlier⟩
  | _ => cases past

end SessionCommand

namespace Session

variable {α γ τ : Type} [PolarScalar α] [Multigraph γ] [EntryTree α τ] {n : Nat}
  {s t : Session α γ τ}

/-- Sessions that agree answer everything alike that does not concern the past, and the past does
not concern them. -/
theorem Agree.agrees (agree : s.Agree n True t) (commands : List (SessionCommand α)) :
    List.Forall₂ (Exchange.Agrees n)
      ((s.exchanges commands).filter fun x => (x.command.since? n).isSome)
      (t.exchanges (commands.filterMap (SessionCommand.since? n))) := by
  induction commands generalizing s t with
  | nil => exact .nil
  | cons command rest ih =>
      rw [exchanges, List.filter_cons, List.filterMap_cons, command_exchange]
      cases since : command.since? n with
      | none =>
          -- Only the first session hears of the flag, and is none the wiser.
          obtain ⟨flag, rfl, before⟩ := SessionCommand.raise_of_since? since
          exact ih ⟨agree.toAlike.raise_before before, agree.config⟩
      | some recent =>
          obtain rfl := SessionCommand.eq_shift_of_since? since
          obtain ⟨step, left⟩ := agree.exchange recent
          have left' : (s.exchange (recent.shift n)).left.Agree n True (t.exchange recent).left :=
            left.mono Or.inl
          have agrees : Exchange.Agrees n (s.exchange (recent.shift n)) (t.exchange recent) :=
            ⟨step.command, step.answer fun _ => trivial, left', left.isRunning, left.isSettled⟩
          exact .cons agrees (ih left')

/-- What comes of loading `d`. -/
structure LoadsAfresh (d : Description α) (s : Session α γ τ) : Prop where
  /-- Only an edge with an end past the last vertex prevents it. -/
  refused_iff : (∃ e, (s.load d).1 = .error e) ↔
    ∃ entry ∈ d.edges, ¬ entry.edge.Within d.vertexCount
  /-- The first such edge is the reason given, and nothing is changed. -/
  refused : ∀ e, (s.load d).1 = .error e →
    (s.load d).2 = s ∧
      ∃ k entry, d.FirstAstray k entry ∧ e = .invalidEdge ⟨k⟩ entry.edge d.vertexCount
  /-- The edges of a simulation that was started can be entered. -/
  built : ∀ simulation, Simulation.ofDescription s.config.initialLayout d = .ok simulation →
    ∃ adjacency : Adjacency γ,
      Adjacency.build simulation.vertexCount simulation.edges = .ok adjacency
  /-- A new session loads the graph as well, and there is no difference between them but the flags
  issued in the past, now or later. -/
  afresh : ∀ flag after, s.load d = (.ok flag, after) →
    flag = ⟨s.flags.raised.size⟩ ∧
      ∃ fresh, (new s.config).load d = (.ok ⟨0⟩, fresh) ∧
        after.Agree s.flags.raised.size True fresh ∧
        ∀ commands, List.Forall₂ (Exchange.Agrees s.flags.raised.size)
          ((after.exchanges commands).filter fun x =>
            (x.command.since? s.flags.raised.size).isSome)
          (fresh.exchanges (commands.filterMap (SessionCommand.since? s.flags.raised.size)))

/-- The flags issued are numbered one after the other. -/
theorem flag_of_load {d : Description α} {flag : StopFlag} {after : Session α γ τ}
    (loads : s.load d = (.ok flag, after)) : flag = ⟨s.flags.raised.size⟩ := by
  obtain ⟨simulation, adjacency, -, -, rfl, -⟩ := load_ok loads
  rw [StopFlags.issue, size_flags_cancel]

/-- A graph that is loaded is loaded by a new session as well, and to the same effect. -/
theorem agree_fresh_of_load {d : Description α} {flag : StopFlag} {after : Session α γ τ}
    (loads : s.load d = (.ok flag, after)) :
    ∃ fresh, (new s.config).load d = (.ok ⟨0⟩, fresh) ∧
      after.Agree s.flags.raised.size True fresh := by
  let blank : Session α γ τ := new s.config
  have flags : s.cancel.flags.Extends s.flags.raised.size blank.cancel.flags := by
    rw [← size_flags_cancel s]
    exact .empty s.cancel.flags
  have within : d.EdgesWithin := load_ok_iff.mp ⟨flag, after, loads⟩
  obtain ⟨flag', fresh, loads'⟩ := (load_ok_iff (s := blank)).mpr within
  obtain rfl : flag' = ⟨0⟩ := flag_of_load loads'
  have same : s.config = blank.config := rfl
  obtain ⟨-, alike⟩ := Alike.of_load same flags loads loads'
  have config : after.config = fresh.config := by
    have kept := config_load d s
    have kept' := config_load d blank
    rw [loads] at kept
    rw [loads'] at kept'
    exact kept.trans kept'.symm
  exact ⟨fresh, loads', alike, config⟩

/-- Whatever a session has done before, it refuses a description without a trace or starts
afresh. -/
theorem loadsAfresh (s : Session α γ τ) (d : Description α) : s.LoadsAfresh d := by
  constructor
  · rcases s.load_cases d with ⟨k, entry, first, refused⟩ | ⟨within, flag, after, loads⟩
    · rw [refused]
      exact iff_of_true ⟨_, rfl⟩ ⟨entry, List.mem_of_getElem? first.entry?, first.astray⟩
    · rw [loads]
      refine iff_of_false ?_ ?_
      · rintro ⟨e, ⟨⟩⟩
      · rintro ⟨entry, mem, astray⟩
        exact astray (within entry mem)
  · intro e refuses
    rcases s.load_cases d with ⟨k, entry, first, refused⟩ | ⟨within, flag, after, loads⟩
    · rw [refused] at refuses ⊢
      cases refuses
      exact ⟨rfl, k, entry, first, rfl⟩
    · rw [loads] at refuses
      cases refuses
  · intro simulation started
    have valid := (Simulation.startsFrom_of_ofDescription started).valid
    exact Adjacency.build_ok valid.edges_within
  · intro flag after loads
    obtain ⟨fresh, loads', agree⟩ := agree_fresh_of_load loads
    exact ⟨flag_of_load loads, fresh, loads', agree, agree.agrees⟩

end Session

end SpringLayout
