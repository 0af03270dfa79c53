import SpringLayout.Run.Basic

/-!
A run in the hands of its watchers, who ask for frames and hold handles on stop flags: on the
run's own flag, on copies of any handle, and on flags that belong to no run.
-/

namespace SpringLayout

/-- A run, the stop flags issued, and the handles held on them. -/
structure Playback (α : Type) where
  run : Run α
  flags : StopFlags
  handles : Array StopFlag
deriving Repr

/-- What can be asked of a run and of the handles, which are named by their order. -/
inductive PlaybackCommand where
  | nextFrame
  | finish
  | snapshot
  | inspect
  /-- Raise the run's flag. -/
  | stop
  /-- Hold one more handle on the run's flag. -/
  | handle
  /-- Hold a copy of a handle. -/
  | copy (handle : Nat)
  /-- Hold a handle on a new flag. -/
  | issue
  /-- Raise the flag of a handle. -/
  | raise (handle : Nat)
deriving DecidableEq, Repr

/-- What is answered. -/
inductive PlaybackAnswer (α : Type) where
  | done
  | frame (frame : Option (Frame α))
  | report (report : Report)
  | points (points : Array (Vec α))
  | state (simulation : Simulation α)
  | refused (cause : LayoutError)
deriving Repr

namespace Playback

/-- A run from the given state, with one handle held on its flag. -/
def start {α : Type} (config : Config α) (simulation : Simulation α) : Playback α :=
  let (flag, flags) := StopFlags.empty.issue
  { run := Run.start config simulation flag, flags := flags, handles := #[flag] }

/-- One more handle is held. -/
def hold {α : Type} (flag : StopFlag) (p : Playback α) : Playback α :=
  { p with handles := p.handles.push flag }

variable {α : Type} [PolarScalar α]

/-- What a command is answered, and what it leaves. A handle that nobody holds does nothing. -/
def exec (p : Playback α) : PlaybackCommand → PlaybackAnswer α × Playback α
  | .nextFrame =>
    match p.run.nextFrame p.flags with
    | (.ok frame, run) => (.frame frame, { p with run := run })
    | (.error e, run) => (.refused e, { p with run := run })
  | .finish =>
    match p.run.finish p.flags with
    | (.ok report, run) => (.report report, { p with run := run })
    | (.error e, run) => (.refused e, { p with run := run })
  | .snapshot => (.points p.run.snapshot, p)
  | .inspect => (.state p.run.simulation, p)
  | .stop => (.done, { p with flags := p.flags.raise p.run.flag })
  | .handle => (.done, p.hold p.run.flag)
  | .copy i =>
    match p.handles[i]? with
    | some flag => (.done, p.hold flag)
    | none => (.done, p)
  | .issue =>
    let (flag, flags) := p.flags.issue
    (.done, { p with flags := flags }.hold flag)
  | .raise i =>
    match p.handles[i]? with
    | some flag => (.done, { p with flags := p.flags.raise flag })
    | none => (.done, p)

end Playback

end SpringLayout
