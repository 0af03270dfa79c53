import SpringLayout.Graph.Adjacency
import SpringLayout.HitIndex
import SpringLayout.Run.Basic
import SpringLayout.Simulation.Flat
import SpringLayout.Simulation.Start

/-!
A session with one graph at a time: its run, who touches what in it, the names of its vertices,
where they are displayed and where they can be hit.

Loading a graph stops the run of the one before and starts a new one under the present
configuration; a graph that cannot be loaded changes nothing. Frames and settling publish new
places for all vertices. A vertex moved by hand is displayed and hit where it was put until the
next publication; the simulation never hears of it.
-/

namespace SpringLayout

/-- A configuration for graphs to come, and the graph that is loaded, if any. -/
structure Session (α γ τ : Type) where
  config : Config α
  /-- The run of the loaded graph. -/
  run : Option (Run α)
  adjacency : Adjacency γ
  names : Array String
  /-- Where each vertex is displayed. -/
  display : Array (Vec α)
  /-- Where each vertex can be hit. -/
  index : HitIndex τ
  /-- The stop flags issued, one for each graph ever loaded, in order. -/
  flags : StopFlags
deriving Repr

/-- A session that keeps its edges in an incidence table and its places in a list. -/
abbrev PlainSession (α : Type) := Session α IncidenceTable (EntryList α)

namespace Session

section Basics

variable {α γ τ : Type}

/-- The configuration for graphs to come. -/
def setConfig (config : Config α) (s : Session α γ τ) : Session α γ τ := { s with config := config }

/-- A graph is loaded whose run is not over. -/
def isRunning (s : Session α γ τ) : Bool :=
  match s.run with
  | some run => run.isRunning s.flags
  | none => false

/-- A graph is loaded whose run came to rest. -/
def isSettled (s : Session α γ τ) : Bool :=
  match s.run with
  | some run => run.settled
  | none => false

/-- The name of a vertex. -/
def name? (s : Session α γ τ) (v : VertexId) : Option String := s.names[v.index]?

/-- The flag of some graph loaded earlier or now is raised. -/
def raise (flag : StopFlag) (s : Session α γ τ) : Session α γ τ :=
  { s with flags := s.flags.raise flag }

/-- The run of the loaded graph is stopped. -/
def cancel (s : Session α γ τ) : Session α γ τ :=
  match s.run with
  | some run => s.raise run.flag
  | none => s

end Basics

section Parts

variable {α γ τ : Type} [Multigraph γ] [EntryTree α τ]

/-- A session without a graph. -/
def new (config : Config α) : Session α γ τ where
  config := config
  run := none
  adjacency := Adjacency.empty
  names := #[]
  display := #[]
  index := HitIndex.empty
  flags := StopFlags.empty

/-- How many vertices the loaded graph has. -/
def vertexCount (s : Session α γ τ) : Nat := s.adjacency.vertexCount

/-- How many edges the loaded graph has. -/
def edgeCount (s : Session α γ τ) : Nat := s.adjacency.edgeCount

/-- The run is stopped and the graph given up. -/
def clear (s : Session α γ τ) : Session α γ τ :=
  { s.cancel with
    run := none
    adjacency := Adjacency.empty
    names := #[]
    display := #[]
    index := HitIndex.empty }

/-- All vertices are displayed and can be hit at new places. -/
def publish (places : Array (Vec α)) (s : Session α γ τ) : Session α γ τ :=
  { s with display := places, index := HitIndex.ofPoints places }

/-- Puts a vertex where it was dragged and answers the edges at it. -/
def moveVertex (v : VertexId) (target : Vec α) (s : Session α γ τ) :
    Attempt (Session α γ τ) (List EdgeId) :=
  match s.adjacency.incident v with
  | .error e => (.error e, s)
  | .ok ids =>
    match s.display[v.index]? with
    | none => (.error (.invalidVertex v s.vertexCount), s)
    | some source =>
      (.ok ids,
        { s with
          display := s.display.setIfInBounds v.index target
          index := (s.index.relocate v source target).2 })

end Parts

section Loading

variable {α γ τ : Type} [Scalar α] [Multigraph γ] [EntryTree α τ]

/-- Loads a graph in place of the present one and answers the flag of its run. -/
def load (d : Description α) (s : Session α γ τ) : Attempt (Session α γ τ) StopFlag :=
  match Simulation.ofDescription s.config.initialLayout d with
  | .error e => (.error e, s)
  | .ok simulation =>
    match Adjacency.build simulation.vertexCount simulation.edges with
    | .error e => (.error e, s)
    | .ok adjacency =>
      let (flag, flags) := s.cancel.flags.issue
      let run := Run.start s.config simulation flag
      let loaded : Session α γ τ :=
        { s with
          run := some run
          adjacency := adjacency
          names := d.names.toArray
          flags := flags }
      (.ok flag, loaded.publish run.snapshot)

/-- The vertex displayed nearest to a point, if it is within `radius` of it. -/
def pick? (p : Vec α) (radius : α) (s : Session α γ τ) : Option VertexId :=
  s.index.nearestWithin? p radius

end Loading

section Motion

variable {α γ τ : Type} [PolarScalar α] [EntryTree α τ]

/-- The next frame of the run, which is published; nothing once the run is over. -/
def nextFrame (s : Session α γ τ) : Attempt (Session α γ τ) (Option (Frame α)) :=
  match s.run with
  | none => (.error .noGraph, s)
  | some run =>
    match run.nextFrame s.flags with
    | (.error e, run) => (.error e, { s with run := some run })
    | (.ok none, run) => (.ok none, { s with run := some run })
    | (.ok (some frame), run) =>
      (.ok (some frame), { s with run := some run }.publish frame.positions)

/-- Finishes the run at one go and publishes where it ends, if it moved at all. -/
def settle (s : Session α γ τ) : Attempt (Session α γ τ) Report :=
  match s.run with
  | none => (.error .noGraph, s)
  | some run =>
    match run.finish s.flags with
    | (.error e, run) => (.error e, { s with run := some run })
    | (.ok report, run) =>
      let after := { s with run := some run }
      (.ok report, if 0 < report.iterations then after.publish run.snapshot else after)

/-- One step of a state that the caller keeps, under the present configuration. -/
def stepFlat (edges : List Nat) (flat : FlatState α) (s : Session α γ τ) :
    Attempt (FlatState α) (StepOutcome α) :=
  flat.step s.config edges

end Motion

end Session

end SpringLayout
