import SpringLayout.Session.Basic

/-!
Everything that can be asked of a session, as one type of commands with one type of answers.
-/

namespace SpringLayout

/-- What can be asked of a session. -/
inductive SessionCommand (α : Type) where
  | setConfig (config : Config α)
  | config
  | load (description : Description α)
  /-- Stop the run of the loaded graph. -/
  | cancel
  /-- Raise a flag that loading a graph has answered. -/
  | raise (flag : StopFlag)
  | clear
  | nextFrame
  | settle
  | moveVertex (vertex : VertexId) (target : Vec α)
  | pick (point : Vec α) (radius : α)
  | display
  | name (vertex : VertexId)
  | neighbors (vertex : VertexId)
  | incident (vertex : VertexId)
  | degree (vertex : VertexId)
  | endpoints (edge : EdgeId)
  | stepFlat (state : FlatState α) (edges : List Nat)
deriving Repr

/-- What is answered. -/
inductive SessionAnswer (α : Type) where
  | done
  | refused (cause : LayoutError)
  | config (config : Config α)
  | loaded (flag : StopFlag)
  | frame (frame : Option (Frame α))
  | report (report : Report)
  | edges (ids : List EdgeId)
  | vertices (ids : List VertexId)
  | vertex (id : Option VertexId)
  | display (places : Array (Vec α))
  | name (name : Option String)
  | degree (degree : Nat)
  | edge (edge : Option Edge)
  | flat (settled : Bool) (state : FlatState α)
deriving Repr

namespace SessionAnswer

variable {α β γ τ : Type}

/-- The answer of an operation that may be refused. -/
def ofExcept (answer : β → SessionAnswer α) : Except LayoutError β → SessionAnswer α
  | .ok b => answer b
  | .error e => .refused e

/-- The answer of an operation that may be refused, and the state that it leaves. -/
def ofAttempt (answer : β → SessionAnswer α) (attempt : Attempt (Session α γ τ) β) :
    SessionAnswer α × Session α γ τ :=
  (ofExcept answer attempt.1, attempt.2)

end SessionAnswer

namespace Session

variable {α γ τ : Type} [PolarScalar α] [Multigraph γ] [EntryTree α τ]

/-- What a command is answered, and the session that it leaves. -/
def exec (s : Session α γ τ) : SessionCommand α → SessionAnswer α × Session α γ τ
  | .setConfig config => (.done, s.setConfig config)
  | .config => (.config s.config, s)
  | .load description => SessionAnswer.ofAttempt .loaded (s.load description)
  | .cancel => (.done, s.cancel)
  | .raise flag => (.done, s.raise flag)
  | .clear => (.done, s.clear)
  | .nextFrame => SessionAnswer.ofAttempt .frame s.nextFrame
  | .settle => SessionAnswer.ofAttempt .report s.settle
  | .moveVertex vertex target => SessionAnswer.ofAttempt .edges (s.moveVertex vertex target)
  | .pick point radius => (.vertex (s.pick? point radius), s)
  | .display => (.display s.display, s)
  | .name vertex => (.name (s.name? vertex), s)
  | .neighbors vertex => (SessionAnswer.ofExcept .vertices (s.adjacency.neighbors vertex), s)
  | .incident vertex => (SessionAnswer.ofExcept .edges (s.adjacency.incident vertex), s)
  | .degree vertex => (SessionAnswer.ofExcept .degree (s.adjacency.degree vertex), s)
  | .endpoints edge => (.edge (s.adjacency.edge? edge), s)
  | .stepFlat state edges =>
    match s.stepFlat edges state with
    | (.ok outcome, after) => (.flat outcome.settled after, s)
    | (.error e, _) => (.refused e, s)

end Session

end SpringLayout
