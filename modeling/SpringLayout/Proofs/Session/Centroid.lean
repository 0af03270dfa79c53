import SpringLayout.Proofs.Run.Schedule
import SpringLayout.Proofs.Session.Representation
import SpringLayout.Proofs.Simulation.Momentum

/-!
The centroid of a loaded graph stays where its description puts it, over exact numbers.

A graph is loaded at rest, at the places of its description (`Description.places`), and nothing that
happens to a session but loading and clearing moves the centroid of its simulation
(`Session.Centered.turn`). Main statement: the forces of every step balance, and so the centroid
stays in every run from rest, in particular in every run of a session (`momentum_law`).
-/

namespace SpringLayout

/-! ### Starts -/

/-- The places at which the vertices of a described graph start. -/
def Description.places {α : Type} [Scalar α] (initial : InitialLayout) (d : Description α) :
    List (Vec α) :=
  match initial with
  | .hints => d.hints
  | .staggered => (List.range d.vertexCount).map Simulation.staggeredPlace

namespace Simulation

theorem eq_atRest_of_ofDescription {α : Type} [Scalar α] {initial : InitialLayout}
    {d : Description α} {s : Simulation α} (started : ofDescription initial d = .ok s) :
    s = atRest (d.places initial).toArray s.edges := by
  rw [ofDescription] at started
  cases checked : d.layoutEdges with
  | error e =>
      rw [checked] at started
      cases started
  | ok edges =>
      rw [checked] at started
      cases initial with
      | hints =>
          cases started
          rfl
      | staggered =>
          cases started
          rfl

theorem poised_of_ofDescription {initial : InitialLayout} {d : Description ℝ} {s : Simulation ℝ}
    (started : ofDescription initial d = .ok s) : s.Poised (Vec.mean (d.places initial)) := by
  rw [eq_atRest_of_ofDescription started]
  exact poised_atRest _ _

end Simulation

/-! ### Sessions -/

namespace Session

variable {γ τ : Type} [Multigraph γ] [EntryTree ℝ τ] {s : Session ℝ γ τ}

/-- The loaded graph moves about the centroid at which it started. -/
def Centered (st : Story ℝ) (s : Session ℝ γ τ) : Prop :=
  ∀ l, st.loaded = some l → ∀ run, s.run = some run →
    run.simulation.Poised (Vec.mean (l.graph.places l.config.initialLayout))

theorem Centered.turn {st : Story ℝ} {h : Happening ℝ} {after : Session ℝ γ τ}
    (turn : Turn s h after) (represents : s.Represents st) (centered : Centered st s) :
    Centered (st.next h) after := by
  obtain ⟨config, loaded⟩ := st
  cases turn with
  | idle => exact centered
  | raise flag => exact centered
  | configure later => exact centered
  | load loads =>
      obtain ⟨simulation, adjacency, started, -, -, rfl⟩ := load_ok loads
      rintro l ⟨⟩ run ⟨⟩
      rw [represents.1] at started
      exact Simulation.poised_of_ofDescription started
  | clear =>
      rintro l ⟨⟩
  | @advance run limit steps settled frames ran running pos row =>
      cases loaded with
      | none =>
          rintro l ⟨⟩
      | some l =>
          obtain ⟨-, run', holds⟩ := represents
          cases holds.loaded.symm.trans ran
          rintro _ ⟨⟩ _ ⟨⟩
          exact (centered l rfl run ran).stepped run.config holds.valid steps
  | move moves =>
      cases loaded with
      | none =>
          rintro l ⟨⟩
      | some l =>
          obtain ⟨-, source, -, rfl⟩ := moveVertex_ok moves
          rintro _ ⟨⟩ run ran
          exact centered l rfl run ran

variable (γ τ) in
theorem told_centered (config : Config ℝ) (commands : List (SessionCommand ℝ)) :
    Centered (told γ τ config commands).1 (told γ τ config commands).2 :=
  told_keeps_represented (P := Centered) (fun _ told => nomatch told) Centered.turn commands

end Session

/-! ### The law -/

/-- What a step under a configuration does to all vertices together, and what follows for runs from
rest. -/
structure MomentumLaw (c : Config ℝ) : Prop where
  /-- The forces of every step balance. -/
  step : ∀ {s : Simulation ℝ}, s.Valid →
    ∃ outcome after, s.step c = (.ok outcome, after) ∧ Simulation.BalancedStep c s after
  stepped : ∀ {s : Simulation ℝ}, s.Valid → (∀ v ∈ s.velocities, v = 0) →
    ∀ t, (s.stepped c t).centroid = s.centroid
  /-- The centroid stays whatever a run from rest is asked for. -/
  driven : ∀ {s : Simulation ℝ}, s.Valid → (∀ v ∈ s.velocities, v = 0) →
    ∀ commands, (Playback.runAfter c s commands).simulation.centroid = s.centroid
  /-- Every described graph starts at rest. -/
  started : ∀ {initial : InitialLayout} {d : Description ℝ} {s : Simulation ℝ},
    Simulation.ofDescription initial d = .ok s →
      s.Valid ∧ (∀ v ∈ s.velocities, v = 0) ∧ s.centroid = Vec.mean (d.places initial)
  /-- In every session that began under the configuration, the loaded graph is where its description
  puts it, by the centroid, and stays there however many more steps are taken. -/
  told : ∀ (γ τ : Type) [Multigraph γ] [EntryTree ℝ τ] (commands : List (SessionCommand ℝ))
    (l : Loaded ℝ), (Session.told γ τ c commands).1.loaded = some l →
      ∃ run, (Session.told γ τ c commands).2.run = some run ∧
        ∀ t, (run.simulation.stepped run.config t).centroid =
          Vec.mean (l.graph.places l.config.initialLayout)

/-- The law holds of every configuration. -/
theorem momentum_law (c : Config ℝ) : MomentumLaw c where
  step valid := by
    obtain ⟨outcome, taken⟩ := Simulation.step_ok c valid
    exact ⟨outcome, _, taken, Simulation.step_balanced c valid⟩
  stepped valid still t := ((Simulation.poised_of_still still).stepped c valid t).centroid
  driven valid still commands := by
    rw [(Playback.runAfter_at valid c commands).simulation]
    exact ((Simulation.poised_of_still still).stepped c valid _).centroid
  started started := by
    refine ⟨(Simulation.startsFrom_of_ofDescription started).valid, ?_,
      (Simulation.poised_of_ofDescription started).centroid⟩
    rw [Simulation.eq_atRest_of_ofDescription started]
    exact fun _ mem => (Array.mem_replicate.mp mem).2
  told γ τ graph tree commands l told := by
    have centered := Session.told_centered γ τ c commands
    rcases (Session.represents_told γ τ c commands).blank_or_holds with
      ⟨untold, -⟩ | ⟨l', run, told', holds⟩
    · rw [told] at untold
      cases untold
    · rw [told] at told'
      cases told'
      refine ⟨run, holds.loaded, fun t => ?_⟩
      exact ((centered l told run holds.loaded).stepped run.config holds.valid t).centroid

/-- Three vertices in one place, parallel edges both ways round and a loop. -/
noncomputable def Simulation.knot : Simulation ℝ :=
  atRest #[⟨0, 0⟩, ⟨0, 0⟩, ⟨0, 0⟩] [⟨⟨0⟩, ⟨1⟩⟩, ⟨⟨2⟩, ⟨2⟩⟩, ⟨⟨1⟩, ⟨0⟩⟩, ⟨⟨2⟩, ⟨0⟩⟩]

theorem momentum_law_knot :
    Simulation.knot.Valid ∧
      (∃ outcome after, Simulation.knot.step Config.standard = (.ok outcome, after) ∧
        Simulation.BalancedStep Config.standard Simulation.knot after) ∧
      ∀ t, (Simulation.knot.stepped Config.standard t).centroid = Simulation.knot.centroid := by
  have valid : Simulation.knot.Valid := by decide
  have still : ∀ v ∈ Simulation.knot.velocities, v = 0 :=
    fun _ mem => (Array.mem_replicate.mp mem).2
  have law := momentum_law Config.standard
  exact ⟨valid, law.step valid, law.stepped valid still⟩

end SpringLayout
