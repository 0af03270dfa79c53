import Mathlib.Logic.Relation
import SpringLayout.Proofs.Run.Flags
import SpringLayout.Proofs.Run.Refusal

/-!
Families of handles.

The holders of a flag are the run itself and handles. A `Lineage` remembers from the commands alone
which handle was copied from which holder, and who raised its flag; holders that copies connect are
of one family (`Lineage.SameFamily`). `Playback.Traces` says that the flags are as the lineage
tells, which each command keeps, one lemma for each way to change handles or flags.

Main statement: `Playback.families_told`. A holder sees its flag raised just if somebody of its
family raised it, be it before or after the copies were made; a frame takes a step just if the run
is not at rest and nobody of its own family raised the flag; and what other families raise is never
noticed.
-/

namespace SpringLayout

/-! ### Who copied whom -/

/-- One who holds on to a flag. -/
inductive Holder where
  | run
  | handle (number : Nat)
deriving DecidableEq, Repr

/-- What the commands so far tell of the handles. -/
structure Lineage where
  /-- How many handles are held. -/
  handles : Nat
  /-- Each handle that was made from a holder, after that holder. -/
  copies : List (Holder × Holder)
  /-- Those who raised their flag. -/
  raisers : List Holder

namespace Lineage

/-- One handle is held, which was made from the run. -/
def opening : Lineage := ⟨1, [(.run, .handle 0)], []⟩

/-- One more handle is made from a holder. -/
def copy (l : Lineage) (origin : Holder) : Lineage :=
  { l with handles := l.handles + 1, copies := (origin, .handle l.handles) :: l.copies }

/-- One more handle is made from nobody. -/
def issue (l : Lineage) : Lineage := { l with handles := l.handles + 1 }

/-- A holder raises its flag. -/
def raise (l : Lineage) (h : Holder) : Lineage := { l with raisers := h :: l.raisers }

/-- The lineage after one more command. A handle that nobody holds does nothing. -/
def next (l : Lineage) : PlaybackCommand → Lineage
  | .stop => l.raise .run
  | .handle => l.copy .run
  | .copy i => if i < l.handles then l.copy (.handle i) else l
  | .issue => l.issue
  | .raise i => if i < l.handles then l.raise (.handle i) else l
  | _ => l

/-- What some commands in a row tell of a run that was just started. -/
def told (commands : List PlaybackCommand) : Lineage := commands.foldl next opening

/-- Copies connect the two holders. -/
def SameFamily (l : Lineage) : Holder → Holder → Prop :=
  Relation.EqvGen fun origin made => (origin, made) ∈ l.copies

/-- Somebody of the family raised its flag. -/
def Stopped (l : Lineage) (h : Holder) : Prop := ∃ raiser ∈ l.raisers, l.SameFamily raiser h

variable {l : Lineage} {a b : Holder}

theorem SameFamily.copy (family : l.SameFamily a b) (origin : Holder) :
    (l.copy origin).SameFamily a b :=
  Relation.EqvGen.mono (fun _ _ made => List.mem_cons_of_mem _ made) a b family

theorem sameFamily_copy (l : Lineage) (origin : Holder) :
    (l.copy origin).SameFamily origin (.handle l.handles) :=
  .rel _ _ List.mem_cons_self

end Lineage

namespace Playback

/-! ### Flags by their holders -/

section Holders

variable {α : Type} {p : Playback α} {h : Holder} {flag : StopFlag}

/-- The flag that a holder has. -/
def flagOf? (p : Playback α) : Holder → Option StopFlag
  | .run => some p.run.flag
  | .handle i => p.handles[i]?

/-- The holder sees its flag raised. -/
def seesRaised (p : Playback α) (h : Holder) : Bool := (p.flagOf? h).any p.flags.isRaised

theorem flagOf?_hold (p : Playback α) (flag : StopFlag) (h : Holder) :
    (p.hold flag).flagOf? h =
      if h = .handle p.handles.size then some flag else p.flagOf? h := by
  cases h with
  | run => rfl
  | handle i => simp [flagOf?, hold, Array.getElem?_push]

/-- The newest handle is held by nobody before. -/
theorem flagOf?_size (p : Playback α) : p.flagOf? (.handle p.handles.size) = none :=
  Array.getElem?_eq_none (Nat.le_refl _)

theorem flagOf?_hold_of_some (held : p.flagOf? h = some flag) (other : StopFlag) :
    (p.hold other).flagOf? h = some flag := by
  rw [flagOf?_hold, if_neg, held]
  rintro rfl
  rw [flagOf?_size] at held
  cases held

/-- A run goes on as long as it is not at rest and sees its flag lowered. -/
theorem isRunning_iff (p : Playback α) :
    p.run.isRunning p.flags = true ↔ p.run.settled = false ∧ ¬ p.seesRaised .run = true := by
  rw [Run.isRunning, Bool.and_eq_true_iff, Bool.not_eq_true', Bool.not_eq_true',
    ← Bool.not_eq_true (p.flags.isRaised _)]
  exact Iff.rfl

end Holders

/-! ### What the lineage tells of the flags -/

section Traces

variable {α : Type} {p : Playback α} {l : Lineage}

/-- The flags and the handles on them are as the lineage tells. -/
structure Traces (l : Lineage) (p : Playback α) : Prop where
  handles : p.handles.size = l.handles
  issued : ∀ h flag, p.flagOf? h = some flag → p.flags.Issued flag
  /-- A copy is on the same flag. -/
  copied : ∀ a b, (a, b) ∈ l.copies → ∃ flag, p.flagOf? a = some flag ∧ p.flagOf? b = some flag
  /-- Holders of one flag are of one family. -/
  related : ∀ a b flag, p.flagOf? a = some flag → p.flagOf? b = some flag → l.SameFamily a b
  raisers : ∀ h ∈ l.raisers, ∃ flag, p.flagOf? h = some flag
  raised_iff : ∀ flag, p.flags.isRaised flag = true ↔ ∃ h ∈ l.raisers, p.flagOf? h = some flag

/-- A new handle changes nothing for those who raised their flags. -/
theorem Traces.exists_raiser_hold_iff (traces : Traces l p) (flag other : StopFlag) :
    (∃ h ∈ l.raisers, (p.hold other).flagOf? h = some flag) ↔
      ∃ h ∈ l.raisers, p.flagOf? h = some flag := by
  refine exists_congr fun h => and_congr_right fun raiser => ?_
  obtain ⟨own, held⟩ := traces.raisers h raiser
  rw [flagOf?_hold_of_some held, held]

theorem Traces.raisers_hold (traces : Traces l p) (other : StopFlag) :
    ∀ h ∈ l.raisers, ∃ flag, (p.hold other).flagOf? h = some flag := by
  intro h raiser
  obtain ⟨own, held⟩ := traces.raisers h raiser
  exact ⟨own, flagOf?_hold_of_some held other⟩

theorem Traces.handles_hold (traces : Traces l p) (other : StopFlag) :
    (p.hold other).handles.size = l.handles + 1 := by
  rw [hold, Array.size_push, traces.handles]

/-- A copy joins the family of its origin. -/
theorem Traces.copy (traces : Traces l p) {origin : Holder} {flag : StopFlag}
    (held : p.flagOf? origin = some flag) : Traces (l.copy origin) (p.hold flag) := by
  have newest : Holder.handle p.handles.size = .handle l.handles :=
    congrArg Holder.handle traces.handles
  -- Whoever has a flag now is of one family with somebody who had it before.
  have elder : ∀ h own, (p.hold flag).flagOf? h = some own →
      ∃ old, p.flagOf? old = some own ∧ (l.copy origin).SameFamily old h := by
    intro h own holds
    rw [flagOf?_hold, newest] at holds
    split at holds
    · next new =>
        subst new
        cases holds
        exact ⟨origin, held, l.sameFamily_copy origin⟩
    · exact ⟨h, holds, .refl h⟩
  constructor
  · exact traces.handles_hold flag
  · intro h own holds
    obtain ⟨old, had, -⟩ := elder h own holds
    exact traces.issued old own had
  · intro a b made
    rcases List.mem_cons.mp made with new | made
    · cases new
      refine ⟨flag, flagOf?_hold_of_some held flag, ?_⟩
      rw [flagOf?_hold, if_pos newest.symm]
    · obtain ⟨own, first, second⟩ := traces.copied a b made
      exact ⟨own, flagOf?_hold_of_some first flag, flagOf?_hold_of_some second flag⟩
  · intro a b own first second
    obtain ⟨a', had, joined⟩ := elder a own first
    obtain ⟨b', had', joined'⟩ := elder b own second
    have related := (traces.related a' b' own had had').copy origin
    exact .trans _ _ _ (.symm _ _ joined) (.trans _ _ _ related joined')
  · exact traces.raisers_hold flag
  · intro own
    exact (traces.raised_iff own).trans (traces.exists_raiser_hold_iff own flag).symm

/-- A handle on a new flag is of no family but its own. -/
theorem Traces.issue (traces : Traces l p) :
    Traces l.issue ({ p with flags := p.flags.issue.2 }.hold p.flags.issue.1) := by
  -- Nobody had the new flag before.
  have unheld : ∀ h, p.flagOf? h ≠ some p.flags.issue.1 := by
    intro h holds
    exact StopFlags.not_issued_issue (traces.issued h _ holds)
  have newest_or : ∀ h own,
      ({ p with flags := p.flags.issue.2 }.hold p.flags.issue.1).flagOf? h = some own →
        h = .handle p.handles.size ∧ own = p.flags.issue.1 ∨ p.flagOf? h = some own := by
    intro h own holds
    rw [flagOf?_hold] at holds
    split at holds
    · next new => exact Or.inl ⟨new, (Option.some.inj holds).symm⟩
    · exact Or.inr holds
  constructor
  · exact traces.handles_hold p.flags.issue.1
  · intro h own holds
    rcases newest_or h own holds with ⟨-, rfl⟩ | had
    · exact StopFlags.issued_issue_iff.mpr (Or.inr rfl)
    · exact StopFlags.issued_issue_iff.mpr (Or.inl (traces.issued h own had))
  · intro a b made
    obtain ⟨own, first, second⟩ := traces.copied a b made
    exact ⟨own, flagOf?_hold_of_some first _, flagOf?_hold_of_some second _⟩
  · intro a b own first second
    rcases newest_or a own first with ⟨rfl, rfl⟩ | had
    · rcases newest_or b _ second with ⟨rfl, -⟩ | had
      · exact .refl _
      · exact absurd had (unheld b)
    · rcases newest_or b own second with ⟨rfl, rfl⟩ | had'
      · exact absurd had (unheld a)
      · exact traces.related a b own had had'
  · exact traces.raisers_hold _
  · intro own
    rw [hold, StopFlags.isRaised_issue]
    exact (traces.raised_iff own).trans (traces.exists_raiser_hold_iff own _).symm

theorem Traces.raise (traces : Traces l p) {h : Holder} {flag : StopFlag}
    (held : p.flagOf? h = some flag) :
    Traces (l.raise h) { p with flags := p.flags.raise flag } := by
  constructor
  · exact traces.handles
  · intro other own holds
    exact StopFlags.issued_raise_iff.mpr (traces.issued other own holds)
  · exact traces.copied
  · exact traces.related
  · exact List.forall_mem_cons.mpr ⟨⟨flag, held⟩, traces.raisers⟩
  · intro own
    have issued := traces.issued h flag held
    rw [StopFlags.isRaised_raise_iff, traces.raised_iff]
    constructor
    · rintro (⟨other, raiser, holds⟩ | ⟨rfl, -⟩)
      · exact ⟨other, List.mem_cons_of_mem _ raiser, holds⟩
      · exact ⟨h, List.mem_cons_self, held⟩
    · rintro ⟨other, raiser, holds⟩
      rcases List.mem_cons.mp raiser with rfl | raiser
      · exact Or.inr ⟨Option.some.inj (holds.symm.trans held), issued⟩
      · exact Or.inl ⟨other, raiser, holds⟩

/-- A run that keeps its flag changes nothing for anybody. -/
theorem Traces.with_run (traces : Traces l p) {run : Run α} (same : run.flag = p.run.flag) :
    Traces l { p with run := run } := by
  have flagOf : ∀ h, { p with run := run }.flagOf? h = p.flagOf? h := by
    intro h
    cases h with
    | run => exact congrArg some same
    | handle i => rfl
  constructor
  · exact traces.handles
  · simpa only [flagOf] using traces.issued
  · simpa only [flagOf] using traces.copied
  · simpa only [flagOf] using traces.related
  · simpa only [flagOf] using traces.raisers
  · simpa only [flagOf] using traces.raised_iff

/-- Where there are no handles yet, only the run has a flag. -/
theorem traces_bare {run : Run α} {flags : StopFlags} (issued : flags.Issued run.flag)
    (lowered : ∀ flag, flags.isRaised flag = false) :
    Traces ⟨0, [], []⟩ { run := run, flags := flags, handles := #[] } := by
  have only : ∀ h flag, ({ run := run, flags := flags, handles := #[] } : Playback α).flagOf? h =
      some flag → h = .run ∧ flag = run.flag := by
    intro h flag holds
    cases h with
    | run => exact ⟨rfl, (Option.some.inj holds).symm⟩
    | handle i => cases holds
  constructor
  · rfl
  · intro h flag holds
    obtain ⟨-, rfl⟩ := only h flag holds
    exact issued
  · exact nofun
  · intro a b flag first second
    obtain ⟨rfl, -⟩ := only a flag first
    obtain ⟨rfl, -⟩ := only b flag second
    exact .refl _
  · exact nofun
  · intro flag
    simp [lowered]

theorem traces_start (c : Config α) (s₀ : Simulation α) : Traces .opening (start c s₀) := by
  have bare : Traces ⟨0, [], []⟩
      { run := Run.start c s₀ StopFlags.empty.issue.1
        flags := StopFlags.empty.issue.2
        handles := #[] } := by
    apply traces_bare
    · exact StopFlags.issued_issue_iff.mpr (Or.inr rfl)
    · intro flag
      rw [StopFlags.isRaised_issue]
      exact StopFlags.isRaised_of_not_issued (Nat.not_lt_zero _)
  have held : (Run.start c s₀ StopFlags.empty.issue.1).flag = StopFlags.empty.issue.1 := rfl
  exact bare.copy (congrArg some held)

theorem Traces.flagOf?_handle (traces : Traces l p) {i : Nat} (within : i < l.handles) :
    ∃ flag, p.handles[i]? = some flag ∧ p.flagOf? (.handle i) = some flag := by
  have held : i < p.handles.size := traces.handles ▸ within
  exact ⟨p.handles[i], Array.getElem?_eq_getElem held, Array.getElem?_eq_getElem held⟩

theorem Traces.handles_eq_none (traces : Traces l p) {i : Nat} (beyond : ¬ i < l.handles) :
    p.handles[i]? = none :=
  Array.getElem?_eq_none (traces.handles ▸ Nat.le_of_not_lt beyond)

/-- Holders are of one family just if they have one flag. -/
theorem Traces.flagOf?_eq_of_sameFamily (traces : Traces l p) {a b : Holder}
    (family : l.SameFamily a b) : p.flagOf? a = p.flagOf? b := by
  induction family with
  | rel a b made =>
      obtain ⟨flag, first, second⟩ := traces.copied a b made
      exact first.trans second.symm
  | refl a => rfl
  | symm a b _ ih => exact ih.symm
  | trans a b c _ _ first second => exact first.trans second

/-- A holder sees its flag raised just if somebody of its family raised it. -/
theorem Traces.seesRaised_iff (traces : Traces l p) (h : Holder) :
    p.seesRaised h = true ↔ l.Stopped h := by
  rw [seesRaised, Option.any_eq_true]
  constructor
  · rintro ⟨flag, held, raised⟩
    obtain ⟨raiser, listed, holds⟩ := (traces.raised_iff flag).mp raised
    exact ⟨raiser, listed, traces.related raiser h flag holds held⟩
  · rintro ⟨raiser, listed, family⟩
    obtain ⟨flag, holds⟩ := traces.raisers raiser listed
    have held := (traces.flagOf?_eq_of_sameFamily family).symm.trans holds
    exact ⟨flag, held, (traces.raised_iff flag).mpr ⟨raiser, listed, holds⟩⟩

variable [PolarScalar α]

/-- After every command the flags are as the lineage tells. -/
theorem Traces.exec (traces : Traces l p) (command : PlaybackCommand) :
    Traces (l.next command) (p.exec command).2 := by
  cases command with
  | nextFrame =>
      rw [exec_nextFrame_snd]
      exact traces.with_run (p.run.flag_nextFrame p.flags)
  | finish =>
      rw [exec_finish_snd]
      exact traces.with_run (p.run.flag_finish p.flags)
  | stop => exact traces.raise (h := .run) rfl
  | handle => exact traces.copy rfl
  | issue => exact traces.issue
  | copy i =>
      rw [Lineage.next, Playback.exec]
      by_cases within : i < l.handles
      · obtain ⟨flag, found, held⟩ := traces.flagOf?_handle within
        rw [if_pos within, found]
        exact traces.copy held
      · rw [if_neg within, traces.handles_eq_none within]
        exact traces
  | raise i =>
      rw [Lineage.next, Playback.exec]
      by_cases within : i < l.handles
      · obtain ⟨flag, found, held⟩ := traces.flagOf?_handle within
        rw [if_pos within, found]
        exact traces.raise held
      · rw [if_neg within, traces.handles_eq_none within]
        exact traces
  | snapshot => exact traces
  | inspect => exact traces

theorem Traces.perform (traces : Traces l p) (commands : List PlaybackCommand) :
    Traces (commands.foldl Lineage.next l) (p.perform commands).2 := by
  induction commands generalizing l p with
  | nil => exact traces
  | cons command rest ih => exact ih (traces.exec command)

end Traces

/-! ### What other families raise -/

section Unnoticed

variable {α : Type} {p : Playback α} {flags : StopFlags} {l : Lineage}

/-- The run would not notice if the flags were `flags`. -/
structure Unnoticed (flags : StopFlags) (p : Playback α) : Prop where
  size : flags.raised.size = p.flags.raised.size
  raised : flags.isRaised p.run.flag = p.flags.isRaised p.run.flag

theorem Unnoticed.isRunning (unnoticed : Unnoticed flags p) :
    p.run.isRunning flags = p.run.isRunning p.flags := by
  rw [Run.isRunning, Run.isRunning, unnoticed.raised]

theorem Unnoticed.with_run (unnoticed : Unnoticed flags p) {run : Run α}
    (same : run.flag = p.run.flag) : Unnoticed flags { p with run := run } where
  size := unnoticed.size
  raised := by
    rw [same]
    exact unnoticed.raised

theorem Unnoticed.raise (unnoticed : Unnoticed flags p) (flag : StopFlag) :
    Unnoticed (flags.raise flag) { p with flags := p.flags.raise flag } where
  size := by
    rw [StopFlags.size_raise, StopFlags.size_raise]
    exact unnoticed.size
  raised := by
    rw [Bool.eq_iff_iff, StopFlags.isRaised_raise_iff, StopFlags.isRaised_raise_iff,
      unnoticed.raised, StopFlags.Issued, StopFlags.Issued, unnoticed.size]

theorem Unnoticed.issue (unnoticed : Unnoticed flags p) :
    flags.issue.1 = p.flags.issue.1 ∧
      Unnoticed flags.issue.2 ({ p with flags := p.flags.issue.2 }.hold p.flags.issue.1) := by
  refine ⟨congrArg StopFlag.mk unnoticed.size, ?_, ?_⟩
  · rw [hold, StopFlags.issue, StopFlags.issue, Array.size_push, Array.size_push, unnoticed.size]
  · rw [hold, StopFlags.isRaised_issue, StopFlags.isRaised_issue]
    exact unnoticed.raised

/-- A handle of another family than the run's does not raise the flag of the run. -/
theorem Traces.unnoticed_raise (traces : Traces l p) {i : Nat} {flag : StopFlag}
    (found : p.handles[i]? = some flag) (other : ¬ l.SameFamily (.handle i) .run) :
    Unnoticed (p.flags.raise flag) p where
  size := StopFlags.size_raise
  raised := by
    rw [Bool.eq_iff_iff, StopFlags.isRaised_raise_iff]
    refine or_iff_left ?_
    rintro ⟨own, -⟩
    exact other (traces.related (.handle i) .run flag found (congrArg some own))

variable [PolarScalar α]

/-- A command that is given under flags which the run does not notice is answered alike, and leaves
the same but for such flags. -/
theorem Unnoticed.exec (unnoticed : Unnoticed flags p) (command : PlaybackCommand) :
    ∃ later, Unnoticed later (p.exec command).2 ∧
      { p with flags := flags }.exec command =
        ((p.exec command).1, { (p.exec command).2 with flags := later }) := by
  cases command with
  | nextFrame =>
      have shown : p.run.nextFrame flags = p.run.nextFrame p.flags := by
        rw [Run.nextFrame, Run.nextFrame, unnoticed.isRunning]
      refine ⟨flags, ?_, ?_⟩
      · rw [exec_nextFrame_snd]
        exact unnoticed.with_run (p.run.flag_nextFrame p.flags)
      · rw [Playback.exec, Playback.exec, shown]
        split
        · rfl
        · rfl
  | finish =>
      have ended : p.run.finish flags = p.run.finish p.flags := by
        rw [Run.finish, Run.finish, unnoticed.isRunning]
      refine ⟨flags, ?_, ?_⟩
      · rw [exec_finish_snd]
        exact unnoticed.with_run (p.run.flag_finish p.flags)
      · rw [Playback.exec, Playback.exec, ended]
        split
        · rfl
        · rfl
  | snapshot => exact ⟨flags, unnoticed, rfl⟩
  | inspect => exact ⟨flags, unnoticed, rfl⟩
  | stop => exact ⟨flags.raise p.run.flag, unnoticed.raise p.run.flag, rfl⟩
  | handle => exact ⟨flags, ⟨unnoticed.size, unnoticed.raised⟩, rfl⟩
  | copy i =>
      rw [Playback.exec, Playback.exec]
      cases p.handles[i]? with
      | none => exact ⟨flags, unnoticed, rfl⟩
      | some flag => exact ⟨flags, ⟨unnoticed.size, unnoticed.raised⟩, rfl⟩
  | issue =>
      obtain ⟨same, issued⟩ := unnoticed.issue
      refine ⟨flags.issue.2, issued, ?_⟩
      change (PlaybackAnswer.done, { p with flags := flags.issue.2 }.hold flags.issue.1) = _
      rw [same]
      rfl
  | raise i =>
      rw [Playback.exec, Playback.exec]
      cases p.handles[i]? with
      | none => exact ⟨flags, unnoticed, rfl⟩
      | some flag => exact ⟨flags.raise flag, unnoticed.raise flag, rfl⟩

theorem Unnoticed.perform (unnoticed : Unnoticed flags p) (commands : List PlaybackCommand) :
    ∃ later, Unnoticed later (p.perform commands).2 ∧
      { p with flags := flags }.perform commands =
        ((p.perform commands).1, { (p.perform commands).2 with flags := later }) := by
  induction commands generalizing p flags with
  | nil => exact ⟨flags, unnoticed, rfl⟩
  | cons command rest ih =>
      obtain ⟨next, unnoticed, answered⟩ := unnoticed.exec command
      obtain ⟨later, unnoticed, rest_answered⟩ := ih unnoticed
      refine ⟨later, unnoticed, ?_⟩
      rw [Playback.perform, answered]
      dsimp only
      rw [rest_answered]
      rfl

end Unnoticed

/-! ### Frames of a run that its family lets run -/

section Told

variable {α : Type} [PolarScalar α] {c : Config α} {s₀ : Simulation α} {p : Playback α}

theorem steps_nextFrame_pos_iff (valid : p.run.simulation.Valid) :
    0 < (p.exec .nextFrame).1.steps ↔ p.run.isRunning p.flags = true := by
  cases running : p.run.isRunning p.flags with
  | false =>
      rw [Run.exec_nextFrame_of_over running]
      exact iff_of_false (Nat.lt_irrefl 0) Bool.false_ne_true
  | true =>
      obtain ⟨steps, settled, shows, advance⟩ := Run.nextFrame_of_running running valid
      rw [Playback.exec, shows]
      exact iff_of_true (advance.pos p.run.stepsPerFrame_pos) rfl

/-- What is known of a run and of the holders of flags, by their lineage. -/
structure FamiliesTold (l : Lineage) (p : Playback α) : Prop where
  handles : p.handles.size = l.handles
  /-- Holders are of one family just if they have one flag. -/
  sameFamily_iff : ∀ a b flag, p.flagOf? a = some flag →
    (l.SameFamily a b ↔ p.flagOf? b = some flag)
  /-- A holder sees its flag raised just if somebody of its family raised it. -/
  seesRaised_iff : ∀ h, p.seesRaised h = true ↔ l.Stopped h
  /-- A frame takes a step just if the run is not at rest and not stopped by its own family. -/
  steps_iff : 0 < (p.exec .nextFrame).1.steps ↔ p.run.settled = false ∧ ¬ l.Stopped .run
  nextFrame_of_over : p.run.settled = true ∨ l.Stopped .run → p.exec .nextFrame = (.frame none, p)
  /-- What is raised by a handle of another family makes no difference, whatever comes after. -/
  unnoticed : ∀ i, ¬ l.SameFamily (.handle i) .run → ∀ later,
    let q := (p.exec (.raise i)).2
    (q.perform later).1 = (p.perform later).1 ∧
      (q.perform later).2.run = (p.perform later).2.run ∧
        (q.perform later).2.run.isRunning (q.perform later).2.flags =
          (p.perform later).2.run.isRunning (p.perform later).2.flags

theorem Traces.familiesTold {l : Lineage} (traces : Traces l p) (valid : p.run.simulation.Valid) :
    FamiliesTold l p := by
  have running_iff : p.run.isRunning p.flags = true ↔ p.run.settled = false ∧ ¬ l.Stopped .run := by
    rw [isRunning_iff, traces.seesRaised_iff]
  constructor
  · exact traces.handles
  · intro a b flag held
    constructor
    · intro family
      exact (traces.flagOf?_eq_of_sameFamily family).symm.trans held
    · intro held'
      exact traces.related a b flag held held'
  · exact traces.seesRaised_iff
  · rw [steps_nextFrame_pos_iff valid, running_iff]
  · intro ended
    apply Run.exec_nextFrame_of_over
    rw [← Bool.not_eq_true, running_iff]
    rintro ⟨unsettled, unstopped⟩
    rcases ended with settled | stopped
    · rw [settled] at unsettled
      cases unsettled
    · exact unstopped stopped
  · intro i other later q
    cases found : p.handles[i]? with
    | none =>
        have idle : q = p := by simp only [q, Playback.exec, found]
        rw [idle]
        exact ⟨rfl, rfl, rfl⟩
    | some flag =>
        have raised : q = { p with flags := p.flags.raise flag } := by
          simp only [q, Playback.exec, found]
        obtain ⟨flags, unnoticed, same⟩ := (traces.unnoticed_raise found other).perform later
        rw [raised, same]
        exact ⟨rfl, rfl, unnoticed.isRunning⟩

/-- Whatever is asked of a run and of handles, a flag is raised by its family alone, and a run is
stopped by its own. -/
theorem families_told (c : Config α) (valid : s₀.Valid) (commands : List PlaybackCommand) :
    FamiliesTold (Lineage.told commands) (driven c s₀ commands).2 := by
  apply Traces.familiesTold
  · exact (traces_start c s₀).perform commands
  · exact (runAfter_at valid c commands).valid valid

/-- A stranger's handle, copied and raised, then a copy of the run's handle, raised after a frame,
and one more copy of it. -/
def strangers : List PlaybackCommand :=
  [.issue, .copy 1, .raise 2, .copy 0, .nextFrame, .raise 3, .copy 0]

theorem families_told_strangers :
    stretched.Valid ∧
      FamiliesTold (Lineage.told strangers) (driven Config.standard stretched strangers).2 :=
  ⟨by decide, families_told Config.standard (by decide) strangers⟩

end Told

end Playback

end SpringLayout
