import SpringLayout.Run.StopFlag
import SpringLayout.Simulation.Settle

/-!
A layout run: a simulation on its way to rest, shown frame by frame.

Each frame takes some steps, as many as configured unless one settles, and shows the positions
fitted to the viewport. A run may also be finished at one go. It is over when a step has settled or
its stop flag is raised, and then nothing moves it any more.
-/

namespace SpringLayout

/-- What a run shows after some steps. -/
structure Frame (α : Type) where
  /-- The places of the vertices on the display. -/
  positions : Array (Vec α)
  /-- The run ended with this frame. -/
  settled : Bool
  /-- The steps since the frame before. -/
  steps : Nat
deriving Repr

/-- A simulation under a configuration that stays the same. -/
structure Run (α : Type) where
  config : Config α
  simulation : Simulation α
  /-- The flag that stops the run. -/
  flag : StopFlag
  /-- The frames shown so far. -/
  frames : UInt32
  /-- The run has come to rest. -/
  settled : Bool
deriving Repr

namespace Run

/-- A run that has not moved yet. -/
def start {α : Type} (config : Config α) (simulation : Simulation α) (flag : StopFlag) : Run α where
  config := config
  simulation := simulation
  flag := flag
  frames := 0
  settled := false

/-- The run is neither at rest nor stopped. -/
def isRunning {α : Type} (flags : StopFlags) (r : Run α) : Bool :=
  !r.settled && !flags.isRaised r.flag

/-- The present positions, fitted to the viewport. -/
def snapshot {α : Type} [Scalar α] (r : Run α) : Array (Vec α) :=
  r.config.viewport.normalize r.simulation.positions

variable {α : Type} [PolarScalar α]

/-- The most steps of a frame. -/
def stepsPerFrame (r : Run α) : Nat := max 1 r.config.stepsPerFrame.toNat

/-- Takes the steps of one frame and shows it; nothing once the run is over. A refused step
ends the frame without showing it. -/
def nextFrame (flags : StopFlags) (r : Run α) : Attempt (Run α) (Option (Frame α)) :=
  if r.isRunning flags then
    match r.simulation.advance r.config 0 r.stepsPerFrame with
    | (.error e, simulation) => (.error e, { r with simulation := simulation })
    | (.ok report, simulation) =>
      let after :=
        { r with simulation := simulation, frames := r.frames + 1, settled := report.settled }
      (.ok (some
        { positions := after.snapshot, settled := report.settled, steps := report.iterations }),
        after)
  else (.ok none, r)

/-- Steps until at rest, without showing frames, and at most as many times as configured; no
step once the run is over. -/
def finish (flags : StopFlags) (r : Run α) : Attempt (Run α) Report :=
  if r.isRunning flags then
    match r.simulation.run r.config with
    | (.error e, simulation) => (.error e, { r with simulation := simulation })
    | (.ok report, simulation) =>
      (.ok report, { r with simulation := simulation, settled := report.settled })
  else (.ok ⟨0, r.settled⟩, r)

end Run

end SpringLayout
