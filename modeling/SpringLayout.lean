import SpringLayout.Json.Config
import SpringLayout.Json.Description
import SpringLayout.Run.Playback
import SpringLayout.Session.Command
import SpringLayout.Proofs.Simulation.Gathering
import SpringLayout.Proofs.Run.Schedule
import SpringLayout.Proofs.Session.Display
import SpringLayout.Proofs.Run.Flags
import SpringLayout.Proofs.Session.Exchange
import SpringLayout.Proofs.Session.Stopping
import SpringLayout.Proofs.Session.Standstill
import SpringLayout.Proofs.Session.Alike
import SpringLayout.Proofs.Session.Moves
import SpringLayout.Proofs.Session.Afresh
import SpringLayout.Proofs.Session.Configuring
import SpringLayout.Proofs.Scalar.Binary64
import SpringLayout.Proofs.EntryTree
import SpringLayout.Proofs.EntryList
import SpringLayout.Proofs.HitIndex
import SpringLayout.Proofs.Session.HitTest
import SpringLayout.Proofs.Simulation.Flat
import SpringLayout.Proofs.Graph.Multigraph
import SpringLayout.Proofs.Graph.Ascending
import SpringLayout.Proofs.Graph.Incidence
import SpringLayout.Proofs.Graph.Verdict
import SpringLayout.Proofs.Run.Refusal
import SpringLayout.Proofs.Session.Translation
import SpringLayout.Proofs.Simulation.Orientation
import SpringLayout.Proofs.Force.PairNumber
import SpringLayout.Proofs.Simulation.Division
import SpringLayout.Proofs.Simulation.Settled
import SpringLayout.Proofs.Plane.Box
import SpringLayout.Proofs.Plane.Viewport
import SpringLayout.Proofs.Simulation.Limit
import SpringLayout.Proofs.Force.Numbered
import SpringLayout.Proofs.Simulation.Numbered
import SpringLayout.Proofs.Plane.Exact
import SpringLayout.Proofs.Force.Balance
import SpringLayout.Proofs.Force.Law
import SpringLayout.Proofs.Session.Centroid
import SpringLayout.Proofs.Force.Renaming
import SpringLayout.Proofs.Simulation.Renaming
import SpringLayout.Proofs.Plane.Fitting
import SpringLayout.Proofs.Plane.Shape
import SpringLayout.Proofs.Plane.Bounds
import SpringLayout.Proofs.Graph.Consistency
import SpringLayout.Proofs.Session.Dragging
import SpringLayout.Proofs.HitView
import SpringLayout.Proofs.Run.Families
import SpringLayout.Proofs.Json.Members
import SpringLayout.Proofs.Json.Parts
import SpringLayout.Proofs.Json.Config
import SpringLayout.Proofs.Json.Description
