import SpringLayout.Proofs.Run.Flags
import SpringLayout.Proofs.Session.Exchange

/-!
Who stops the runs of a session, and when.

Every graph that is loaded is issued a flag of its own. `Halted` says of the exchanges since then
what stops its run: somebody raises its flag, the session cancels or clears while it is the loaded
graph, or another graph is loaded. `Session.told_flagsFollow` says that exactly this raises the
flag, and that therefore only the flag of the loaded graph can be lowered.

`Session.Flagging` says what each exchange does about the flags. The first exchange that stops a run
finds its graph loaded, so `Halted` comes down to whether any exchange stops it at all
(`Halted.iff_exists_stops`).
-/

namespace SpringLayout

/-! ### What stops a run -/

section History

variable {α γ τ : Type} {flag : StopFlag}

/-- The exchange stops the run of `flag`, if that is the run of the loaded graph. -/
def Exchange.Stops (flag : StopFlag) (x : Exchange α γ τ) : Prop :=
  match x.command, x.answer with
  | .raise other, _ => other = flag
  | .cancel, _ => True
  | .clear, _ => True
  | .load _, .loaded _ => True
  | _, _ => False

/-- What stopped the run of `flag` in the exchanges since its graph was loaded. -/
inductive Halted (flag : StopFlag) (since : List (Exchange α γ τ)) : Prop where
  /-- Somebody raised the flag. -/
  | raised {x : Exchange α γ τ} : x ∈ since → x.command = .raise flag → Halted flag since
  /-- The session stopped the run, or gave up its graph, while that was the loaded one. -/
  | stopped (meanwhile : List (Exchange α γ τ)) {later : List (Exchange α γ τ)}
      {x : Exchange α γ τ} :
      since = meanwhile ++ x :: later → (∀ y ∈ meanwhile, y.keepsGraph = true) →
      x.command = .cancel ∨ x.command = .clear → Halted flag since
  /-- Another graph was loaded. -/
  | replaced {x : Exchange α γ τ} {d : Description α} {other : StopFlag} :
      x ∈ since → x.command = .load d → x.answer = .loaded other → Halted flag since

theorem Exchange.keepsGraph_of_not_stops {x : Exchange α γ τ} (passes : ¬ x.Stops flag) :
    x.keepsGraph = true := by
  obtain ⟨command, answer, left⟩ := x
  cases command with
  | load d =>
      cases answer with
      | loaded issued => exact absurd trivial passes
      | _ => rfl
  | clear => exact absurd trivial passes
  | _ => rfl

theorem Halted.of_head {x : Exchange α γ τ} {since : List (Exchange α γ τ)} (stops : x.Stops flag) :
    Halted flag (x :: since) := by
  obtain ⟨command, answer, left⟩ := x
  cases command with
  | raise other =>
      cases stops
      exact .raised List.mem_cons_self rfl
  | cancel => exact .stopped [] rfl (by simp) (Or.inl rfl)
  | clear => exact .stopped [] rfl (by simp) (Or.inr rfl)
  | load d =>
      cases answer with
      | loaded issued => exact .replaced List.mem_cons_self rfl rfl
      | _ => exact stops.elim
  | _ => exact stops.elim

/-- An exchange that keeps the graph does not hide what comes after it. -/
theorem Halted.cons {x : Exchange α γ τ} {since : List (Exchange α γ τ)}
    (keeps : x.keepsGraph = true) (halted : Halted flag since) :
    Halted flag (x :: since) := by
  cases halted with
  | raised mem raises => exact .raised (List.mem_cons_of_mem _ mem) raises
  | stopped meanwhile split kept stops =>
      refine .stopped (x :: meanwhile) (congrArg (x :: ·) split) ?_ stops
      exact List.forall_mem_cons.mpr ⟨keeps, kept⟩
  | replaced mem loads answered =>
      exact .replaced (List.mem_cons_of_mem _ mem) loads answered

/-- A run is halted as soon as any exchange stops it: the first one to do so still finds the graph
loaded. -/
theorem Halted.iff_exists_stops {since : List (Exchange α γ τ)} :
    Halted flag since ↔ ∃ x ∈ since, x.Stops flag := by
  constructor
  · intro halted
    cases halted with
    | @raised x mem raises =>
        refine ⟨x, mem, ?_⟩
        rw [Exchange.Stops, raises]
    | @stopped meanwhile later x split kept stops =>
        refine ⟨x, by simp [split], ?_⟩
        rcases stops with cancels | clears
        · rw [Exchange.Stops, cancels]
          trivial
        · rw [Exchange.Stops, clears]
          trivial
    | @replaced x d other mem loads answered =>
        refine ⟨x, mem, ?_⟩
        rw [Exchange.Stops, loads, answered]
        trivial
  · rintro ⟨x, mem, stops⟩
    induction since with
    | nil => cases mem
    | cons y rest ih =>
        by_cases first : y.Stops flag
        · exact .of_head first
        · rcases List.mem_cons.mp mem with rfl | mem
          · exact absurd stops first
          · exact (ih mem).cons (Exchange.keepsGraph_of_not_stops first)

end History

/-! ### What an exchange does about the flags -/

namespace Session

section Flags

variable {α γ τ : Type} {s : Session α γ τ} {flag : StopFlag}

/-- Cancelling raises the flag of the loaded graph, if it was issued, and no other. -/
theorem isRaised_cancel_iff :
    s.cancel.flags.isRaised flag = true ↔
      s.flags.isRaised flag = true ∨ s.run.map Run.flag = some flag ∧ s.flags.Issued flag := by
  unfold cancel
  cases loaded : s.run with
  | none => simp
  | some run =>
      rw [Option.map_some, Option.some.injEq]
      refine StopFlags.isRaised_raise_iff.trans (or_congr_right ⟨?_, ?_⟩)
      · rintro ⟨rfl, issued⟩
        exact ⟨rfl, issued⟩
      · rintro ⟨rfl, issued⟩
        exact ⟨rfl, issued⟩

@[simp] theorem issued_cancel_iff : s.cancel.flags.Issued flag ↔ s.flags.Issued flag := by
  unfold cancel
  split
  · exact StopFlags.issued_raise_iff
  · exact Iff.rfl

@[simp] theorem size_flags_cancel (s : Session α γ τ) :
    s.cancel.flags.raised.size = s.flags.raised.size := by
  unfold cancel
  split
  · exact StopFlags.size_raise
  · rfl

variable [Multigraph γ] [EntryTree α τ]

/-- What an exchange does about the flags. -/
inductive Flagging (s : Session α γ τ) : Exchange α γ τ → Prop where
  | quiet {x : Exchange α γ τ} : (∀ flag, ¬ x.Stops flag) → x.flag? = none → s.SameFlags x.left →
      Flagging s x
  | raise (flag : StopFlag) : Flagging s ⟨.raise flag, .done, s.raise flag⟩
  | cancel : Flagging s ⟨.cancel, .done, s.cancel⟩
  | clear : Flagging s ⟨.clear, .done, s.clear⟩
  | load {d : Description α} {left : Session α γ τ} : left.flags = s.cancel.flags.issue.2 →
      left.run.map Run.flag = some s.cancel.flags.issue.1 →
      Flagging s ⟨.load d, .loaded s.cancel.flags.issue.1, left⟩

/-- A raised flag stays raised. -/
theorem Flagging.isRaised {x : Exchange α γ τ} (flagging : s.Flagging x)
    (raised : s.flags.isRaised flag = true) : x.left.flags.isRaised flag = true := by
  cases flagging with
  | quiet passes unissued same => rwa [same.flags]
  | raise other => exact StopFlags.isRaised_raise raised other
  | cancel => exact isRaised_cancel_iff.mpr (Or.inl raised)
  | clear => exact isRaised_cancel_iff.mpr (Or.inl raised)
  | load flags loaded =>
      rw [flags, StopFlags.isRaised_issue]
      exact isRaised_cancel_iff.mpr (Or.inl raised)

/-- An exchange that could stop no run leaves the flags. -/
theorem Flagging.flags_of_passes {x : Exchange α γ τ} (flagging : s.Flagging x)
    (passes : ∀ flag, ¬ x.Stops flag) : x.left.flags = s.flags := by
  cases flagging with
  | quiet _ unissued same => exact same.flags
  | raise flag => exact absurd rfl (passes flag)
  | cancel => exact absurd trivial (passes ⟨0⟩)
  | clear => exact absurd trivial (passes ⟨0⟩)
  | load flags loaded => exact absurd trivial (passes ⟨0⟩)

/-- An exchange issues the flag that it answers, and no other. -/
theorem Flagging.range_eq_append {x : Exchange α γ τ} (flagging : s.Flagging x) :
    (List.range x.left.flags.raised.size).map StopFlag.mk =
      (List.range s.flags.raised.size).map StopFlag.mk ++ x.flag?.toList := by
  cases flagging with
  | quiet passes unissued same =>
      rw [unissued, same.flags]
      exact (List.append_nil _).symm
  | raise other =>
      rw [Session.raise, StopFlags.size_raise]
      exact (List.append_nil _).symm
  | cancel =>
      rw [size_flags_cancel]
      exact (List.append_nil _).symm
  | clear =>
      rw [Session.clear, size_flags_cancel]
      exact (List.append_nil _).symm
  | load flags loaded =>
      rw [flags, StopFlags.issue, Array.size_push, size_flags_cancel, List.range_succ,
        List.map_append, ← size_flags_cancel s]
      rfl

end Flags

/-! ### The flag of the loaded graph -/

section Loaded

variable {α γ τ : Type} {s : Session α γ τ}

/-- The loaded graph has the flag, which is issued and not raised. -/
structure Live (flag : StopFlag) (s : Session α γ τ) : Prop where
  loaded : s.run.map Run.flag = some flag
  issued : s.flags.Issued flag
  lowered : s.flags.isRaised flag = false

/-- No flag is lowered but that of the loaded graph. -/
def OneLive (s : Session α γ τ) : Prop :=
  ∀ flag, s.flags.Issued flag → s.flags.isRaised flag = false → s.run.map Run.flag = some flag

/-- Once the loaded graph is cancelled as well, every flag is raised. -/
theorem OneLive.isRaised_cancel (one : s.OneLive) {flag : StopFlag} (issued : s.flags.Issued flag) :
    s.cancel.flags.isRaised flag = true := by
  rw [isRaised_cancel_iff]
  cases raised : s.flags.isRaised flag with
  | true => exact Or.inl rfl
  | false => exact Or.inr ⟨one flag issued raised, issued⟩

/-- Raising a flag that is not that of the loaded graph changes nothing: it is raised already, or
was never issued. -/
theorem OneLive.raise_eq_self (one : s.OneLive) {flag : StopFlag}
    (other : s.run.map Run.flag ≠ some flag) : s.raise flag = s := by
  have raised : s.flags.Issued flag → s.flags.isRaised flag = true := by
    intro issued
    rw [← Bool.not_eq_false]
    exact fun lowered => other (one flag issued lowered)
  rw [raise, StopFlags.raise_eq_self raised]

variable [Multigraph γ] [EntryTree α τ]

/-- An exchange raises the flag of the loaded graph if it stops its run, and otherwise leaves it
lowered and the graph loaded. -/
theorem Live.exchange {flag : StopFlag} (live : s.Live flag) {x : Exchange α γ τ}
    (flagging : s.Flagging x) :
    x.Stops flag ∧ x.left.flags.isRaised flag = true ∨ ¬ x.Stops flag ∧ x.left.Live flag := by
  obtain ⟨loaded, issued, lowered⟩ := live
  have cancelled : s.cancel.flags.isRaised flag = true :=
    isRaised_cancel_iff.mpr (Or.inr ⟨loaded, issued⟩)
  cases flagging with
  | quiet passes unissued same =>
      refine Or.inr ⟨passes flag, same.flag.trans loaded, ?_, ?_⟩
      · rwa [same.flags]
      · rwa [same.flags]
  | raise other =>
      by_cases own : other = flag
      · subst own
        exact Or.inl ⟨rfl, StopFlags.isRaised_raise_iff.mpr (Or.inr ⟨rfl, issued⟩)⟩
      · refine Or.inr ⟨own, loaded, StopFlags.issued_raise_iff.mpr issued, ?_⟩
        have unraised : ¬ (s.flags.raise other).isRaised flag = true := by
          rw [StopFlags.isRaised_raise_iff, lowered]
          rintro (raised | ⟨rfl, -⟩)
          · cases raised
          · exact own rfl
        exact Bool.eq_false_iff.mpr unraised
  | cancel => exact Or.inl ⟨trivial, cancelled⟩
  | clear => exact Or.inl ⟨trivial, cancelled⟩
  | load flags loaded =>
      refine Or.inl ⟨trivial, ?_⟩
      rw [flags, StopFlags.isRaised_issue]
      exact cancelled

/-- A graph that is loaded has a flag of its own, which is lowered. -/
theorem Flagging.live_of_flag? {flag : StopFlag} {x : Exchange α γ τ} (flagging : s.Flagging x)
    (loads : x.flag? = some flag) : x.left.Live flag := by
  cases flagging with
  | quiet passes unissued same =>
      rw [unissued] at loads
      cases loads
  | raise other => cases loads
  | cancel => cases loads
  | clear => cases loads
  | load flags loaded =>
      cases loads
      refine ⟨loaded, ?_, ?_⟩
      · rw [flags, StopFlags.issued_issue_iff]
        exact Or.inr rfl
      · rw [flags, StopFlags.isRaised_issue]
        exact StopFlags.isRaised_of_not_issued StopFlags.not_issued_issue

theorem oneLive_new (config : Config α) : (new config : Session α γ τ).OneLive :=
  fun _ issued => absurd issued (Nat.not_lt_zero _)

theorem OneLive.exchange (one : s.OneLive) {x : Exchange α γ τ} (flagging : s.Flagging x) :
    x.left.OneLive := by
  intro flag issued lowered
  cases flagging with
  | quiet passes unissued same =>
      rw [same.flags] at issued lowered
      exact same.flag.trans (one flag issued lowered)
  | raise other =>
      refine one flag (StopFlags.issued_raise_iff.mp issued) ?_
      exact Bool.eq_false_iff.mpr fun raised =>
        Bool.eq_false_iff.mp lowered (StopFlags.isRaised_raise raised other)
  | cancel =>
      rw [one.isRaised_cancel (issued_cancel_iff.mp issued)] at lowered
      cases lowered
  | clear =>
      rw [show s.clear.flags = s.cancel.flags from rfl,
        one.isRaised_cancel (issued_cancel_iff.mp issued)] at lowered
      cases lowered
  | load flags loaded =>
      rw [flags, StopFlags.issued_issue_iff] at issued
      rcases issued with old | rfl
      · rw [flags, StopFlags.isRaised_issue, one.isRaised_cancel (issued_cancel_iff.mp old)]
          at lowered
        cases lowered
      · exact loaded

end Loaded

/-! ### Every command -/

section Commands

variable {α γ τ : Type} [PolarScalar α] [Multigraph γ] [EntryTree α τ] {s : Session α γ τ}

theorem flagging_exchange (s : Session α γ τ) (command : SessionCommand α) :
    Flagging s (s.exchange command) := by
  cases command with
  | load d =>
      rw [exchange, exec]
      rcases load_refused_or_ok d s with ⟨e, refused⟩ | ⟨flag, after, loads⟩
      · rw [refused]
        exact .quiet (fun _ => id) rfl ⟨rfl, rfl⟩
      · obtain ⟨simulation, adjacency, -, -, rfl, rfl⟩ := load_ok loads
        rw [loads]
        exact .load rfl rfl
  | cancel => exact .cancel
  | raise flag => exact .raise flag
  | clear => exact .clear
  | nextFrame => exact .quiet (fun _ => id) rfl (sameSetup_nextFrame s).toSameFlags
  | settle => exact .quiet (fun _ => id) rfl (sameSetup_settle s).toSameFlags
  | moveVertex v target =>
      exact .quiet (fun _ => id) rfl (sameSetup_moveVertex v target s).toSameFlags
  | stepFlat state edges =>
      rw [exchange, exec]
      split
      · exact .quiet (fun _ => id) rfl ⟨rfl, rfl⟩
      · exact .quiet (fun _ => id) rfl ⟨rfl, rfl⟩
  | _ => exact .quiet (fun _ => id) rfl ⟨rfl, rfl⟩

theorem isRaised_after {flag : StopFlag} (raised : s.flags.isRaised flag = true)
    (commands : List (SessionCommand α)) : (s.after commands).flags.isRaised flag = true :=
  after_keeps (P := fun s => s.flags.isRaised flag = true)
    (fun command raised => (flagging_exchange _ command).isRaised raised) raised commands

/-- The flag of the loaded graph is raised by the exchanges that stop its run. -/
theorem Live.isRaised_after_iff {flag : StopFlag} (live : s.Live flag)
    (commands : List (SessionCommand α)) :
    (s.after commands).flags.isRaised flag = true ↔ Halted flag (s.exchanges commands) := by
  rw [Halted.iff_exists_stops]
  induction commands generalizing s with
  | nil => simp [after, exchanges, live.lowered]
  | cons command rest ih =>
      rw [exchanges]
      simp only [List.mem_cons, exists_eq_or_imp]
      rcases live.exchange (flagging_exchange s command) with ⟨stops, raised⟩ | ⟨passes, live⟩
      · exact iff_of_true (isRaised_after raised rest) (Or.inl stops)
      · exact (ih live).trans (or_iff_right passes).symm

/-- The flags issued so far, in order, are those issued before and then one for each graph loaded
since. -/
theorem range_append_flags (s : Session α γ τ) (commands : List (SessionCommand α)) :
    (List.range s.flags.raised.size).map StopFlag.mk ++
        (s.exchanges commands).filterMap Exchange.flag? =
      (List.range (s.after commands).flags.raised.size).map StopFlag.mk := by
  induction commands generalizing s with
  | nil => exact List.append_nil _
  | cons command rest ih =>
      rw [after, ← ih, (flagging_exchange s command).range_eq_append, List.append_assoc, exchanges,
        List.filterMap_cons]
      cases (s.exchange command).flag? with
      | none => rfl
      | some flag => rfl

/-! ### Reachable sessions -/

/-- What the exchanges with a session so far tell of its flags. -/
structure FlagsFollow (xs : List (Exchange α γ τ)) (s : Session α γ τ) : Prop where
  /-- The graphs loaded so far were issued the flags in order. -/
  numbered : xs.filterMap Exchange.flag? = (List.range s.flags.raised.size).map StopFlag.mk
  /-- A flag is raised just if its run was halted since its graph was loaded. -/
  raised_iff : ∀ {before since : List (Exchange α γ τ)} {x : Exchange α γ τ} {flag : StopFlag},
    xs = before ++ x :: since → x.flag? = some flag →
      (s.flags.isRaised flag = true ↔ Halted flag since)
  /-- A raised flag stays raised, whatever comes. -/
  stays_raised : ∀ flag commands, s.flags.isRaised flag = true →
    (s.after commands).flags.isRaised flag = true
  /-- Of all flags issued, only that of the loaded graph can be lowered. -/
  live : ∀ flag ∈ xs.filterMap Exchange.flag?, s.flags.isRaised flag = false →
    s.run.map Run.flag = some flag
  /-- Raising any other flag changes nothing. -/
  stale : ∀ flag, s.run.map Run.flag ≠ some flag → s.raise flag = s
  /-- What is not there to stop a run raises no flag. -/
  quiet : ∀ command, (∀ flag, ¬ (s.exchange command).Stops flag) →
    (s.exchange command).left.flags = s.flags

/-- The flags of every reachable session are as the exchanges with it tell. -/
theorem told_flagsFollow (config : Config α) (commands : List (SessionCommand α)) :
    FlagsFollow ((new config : Session α γ τ).exchanges commands) (told γ τ config commands).2 := by
  rw [told, perform_snd]
  have one : ((new config : Session α γ τ).after commands).OneLive :=
    after_keeps (P := OneLive) (fun command one => one.exchange (flagging_exchange _ command))
      (oneLive_new config) commands
  have numbered : ((new config : Session α γ τ).exchanges commands).filterMap Exchange.flag? =
      (List.range ((new config).after commands).flags.raised.size).map StopFlag.mk :=
    range_append_flags (new config) commands
  constructor
  · exact numbered
  · intro before since x flag split loads
    obtain ⟨earlier, later, taken, rfl, last⟩ := exchanges_eq_append_cons split
    rw [last]
    rw [taken] at loads ⊢
    exact ((flagging_exchange _ _).live_of_flag? loads).isRaised_after_iff later
  · intro flag later raised
    exact isRaised_after raised later
  · intro flag issued lowered
    rw [numbered] at issued
    obtain ⟨i, less, rfl⟩ := List.mem_map.mp issued
    exact one ⟨i⟩ (List.mem_range.mp less) lowered
  · intro flag other
    exact one.raise_eq_self other
  · intro command passes
    exact (flagging_exchange _ command).flags_of_passes passes

end Commands

end Session

end SpringLayout
