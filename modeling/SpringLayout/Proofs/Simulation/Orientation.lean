import SpringLayout.Proofs.Force.Orientation
import SpringLayout.Proofs.Scalar.Binary64.Sign
import SpringLayout.Proofs.Simulation.Iteration
import SpringLayout.Proofs.Simulation.Matched

/-!
Simulations with some of their edges turned round.

`Simulation.turn` exchanges head and tail of any chosen edges and touches nothing else. As it
does not show in the forces, a step of a valid state answers the same and moves the vertices the
same (`Simulation.step_turn`), and so do steps in a row. Main statement: no step and no run to rest
can tell a state from one with edges turned round (`Simulation.runs_turned_alike`). Of arithmetic
it needs `SignSymmetric` and nothing else.
-/

namespace SpringLayout

/-! ### Edges turned round -/

namespace Edge

/-- The edge with head and tail exchanged. -/
def reversed (e : Edge) : Edge := ⟨e.tail, e.head⟩

/-- The same edge, either way round. -/
def Turned (e e' : Edge) : Prop := e' = e ∨ e' = e.reversed

/-- The edges with those chosen turned round. -/
def turn (turned : EdgeId → Bool) (edges : List Edge) : List Edge :=
  edges.mapIdx fun k e => if turned ⟨k⟩ then e.reversed else e

variable {n : Nat} {edges edges' : List Edge}

theorem turned_turn (turned : EdgeId → Bool) (edges : List Edge) :
    List.Forall₂ Turned edges (turn turned edges) := by
  induction edges generalizing turned with
  | nil => exact .nil
  | cons e rest ih =>
      rw [turn, List.mapIdx_cons]
      refine .cons ?_ (ih fun k => turned ⟨k.index + 1⟩)
      split
      · exact .inr rfl
      · exact .inl rfl

theorem within_reversed {e : Edge} (within : e.Within n) : e.reversed.Within n := within.symm

theorem within_of_turned (turned : List.Forall₂ Turned edges edges')
    (within : ∀ e ∈ edges, e.Within n) : ∀ e ∈ edges', e.Within n := by
  induction turned with
  | nil => exact within
  | @cons e e' rest rest' first _ ih =>
      obtain ⟨inside, within⟩ := List.forall_mem_cons.mp within
      refine List.forall_mem_cons.mpr ⟨?_, ih within⟩
      rcases first with rfl | rfl
      · exact inside
      · exact within_reversed inside

theorem link?_reversed (n : Nat) (e : Edge) :
    e.reversed.link? n = (e.link? n).map Link.reversed := by
  unfold link?
  by_cases inside : e.Within n
  · rw [dif_pos inside, dif_pos (within_reversed inside)]
    rfl
  · rw [dif_neg inside, dif_neg fun turned => inside (within_reversed turned)]
    rfl

theorem link?_turned {e e' : Edge} (turned : Turned e e') :
    Option.Rel Link.Turned (e.link? n) (e'.link? n) := by
  rcases turned with rfl | rfl
  · cases e'.link? n with
    | none => exact .none
    | some l => exact .some (.inl rfl)
  · rw [link?_reversed]
    cases e.link? n with
    | none => exact .none
    | some l => exact .some (.inr rfl)

theorem filterMap_link?_turned (n : Nat) (turned : List.Forall₂ Turned edges edges') :
    List.Forall₂ Link.Turned (edges.filterMap (link? n)) (edges'.filterMap (link? n)) := by
  refine List.rel_filterMap ?_ turned
  intro e e' turned
  exact link?_turned turned

end Edge

/-! ### Steps -/

theorem System.step_turned {α : Type} [PolarScalar α] [SignSymmetric α] {n : Nat} (c : Config α)
    (positions velocities : Vector (Vec α) n) {links links' : List (Link n)}
    (turned : List.Forall₂ Link.Turned links links') :
    System.step c ⟨positions, velocities, links'⟩ =
      let stepped := System.step c ⟨positions, velocities, links⟩
      (stepped.1, { stepped.2 with links := links' }) := by
  simp only [step, StepOutcome.ofForces, Push.total_all_turned c positions turned,
    Push.countP_guarded_turned c positions turned]
  rfl

namespace Simulation

section Turning

variable {α : Type}

/-- The state with the chosen edges turned round. -/
def turn (turned : EdgeId → Bool) (s : Simulation α) : Simulation α :=
  { s with edges := Edge.turn turned s.edges }

theorem Valid.turn {s : Simulation α} (valid : s.Valid) (turned : EdgeId → Bool) :
    (s.turn turned).Valid where
  velocities_size := valid.velocities_size
  edges_within := Edge.within_of_turned (Edge.turned_turn turned s.edges) valid.edges_within

end Turning

variable {α : Type} [PolarScalar α] [SignSymmetric α] {s : Simulation α}

theorem step_turn_ofVectors {n : Nat} (c : Config α) (positions velocities : Vector (Vec α) n)
    {edges : List Edge} (within : ∀ e ∈ edges, e.Within n) (turned : EdgeId → Bool) :
    ((ofVectors positions velocities edges).turn turned).step c =
      let stepped := (ofVectors positions velocities edges).step c
      (stepped.1, stepped.2.turn turned) := by
  have sameEdges := Edge.turned_turn turned edges
  have within' := Edge.within_of_turned sameEdges within
  have answered := step_ofVectors c positions velocities within'
  rw [System.step_turned c positions velocities (Edge.filterMap_link?_turned n sameEdges)]
    at answered
  rw [step_ofVectors c positions velocities within]
  exact answered

/-- A step answers the same whichever way round the edges are, and leaves them that way. -/
theorem step_turn (c : Config α) (valid : s.Valid) (turned : EdgeId → Bool) :
    (s.turn turned).step c = ((s.step c).1, (s.step c).2.turn turned) := by
  rw [valid.eq_ofVectors]
  exact step_turn_ofVectors c _ _ valid.edges_within turned

theorem stepped_turn (c : Config α) (valid : s.Valid) (turned : EdgeId → Bool) (t : Nat) :
    (s.turn turned).stepped c t = (s.stepped c t).turn turned := by
  induction t with
  | zero => rfl
  | succ t ih => rw [stepped, stepped, ih, step_turn c (valid.stepped c t)]

theorem advance_turn (c : Config α) (valid : s.Valid) (turned : EdgeId → Bool)
    (taken limit : Nat) :
    (s.turn turned).advance c taken limit =
      ((s.advance c taken limit).1, (s.advance c taken limit).2.turn turned) := by
  induction limit generalizing s taken with
  | zero => rfl
  | succ limit ih =>
      obtain ⟨outcome, answered⟩ := step_ok c valid
      rw [advance, advance, step_turn c valid, answered]
      dsimp only
      cases outcome.settled with
      | true => rfl
      | false => exact ih (valid.step c) (taken + 1)

/-- However many steps a valid state takes, every one of them is taken alike with any edges turned
round: it has the same outcome and leaves the same positions and velocities. So does every run
until at rest, with the same report. -/
theorem runs_turned_alike (c : Config α) (valid : s.Valid) (turned : EdgeId → Bool) :
    (∀ t, ∃ outcome,
      (s.stepped c t).step c = (.ok outcome, s.stepped c (t + 1)) ∧
        ((s.turn turned).stepped c t).step c =
          (.ok outcome, (s.stepped c (t + 1)).turn turned)) ∧
      ∀ limit, ∃ report after,
        s.settle c limit = (.ok report, after) ∧
          (s.turn turned).settle c limit = (.ok report, after.turn turned) := by
  constructor
  · intro t
    obtain ⟨outcome, answered⟩ := step_ok c (valid.stepped c t)
    refine ⟨outcome, answered, ?_⟩
    rw [stepped_turn c valid, step_turn c (valid.stepped c t), answered]
    rfl
  · intro limit
    obtain ⟨steps, settled, answered, -⟩ := advance_of_valid c valid 0 limit.toNat
    refine ⟨_, _, answered, ?_⟩
    rw [settle, advance_turn c valid, answered]

/-- Two coincident vertices, one that is nowhere and one infinitely far off, with parallel edges
and a loop. -/
def wreck : Simulation Float :=
  atRest #[⟨0, 0⟩, ⟨0, 0⟩, ⟨0 / 0, 1⟩, ⟨1 / 0, -1⟩]
    [⟨⟨0⟩, ⟨1⟩⟩, ⟨⟨0⟩, ⟨1⟩⟩, ⟨⟨2⟩, ⟨0⟩⟩, ⟨⟨3⟩, ⟨3⟩⟩, ⟨⟨1⟩, ⟨3⟩⟩]

theorem runs_turned_alike_wreck :
    wreck.Valid ∧
      (∀ t, ∃ outcome,
        (wreck.stepped Config.standard t).step Config.standard =
            (.ok outcome, wreck.stepped Config.standard (t + 1)) ∧
          ((wreck.turn fun e => e.index != 1).stepped Config.standard t).step Config.standard =
            (.ok outcome,
              (wreck.stepped Config.standard (t + 1)).turn fun e => e.index != 1)) ∧
        ∀ limit, ∃ report after,
          wreck.settle Config.standard limit = (.ok report, after) ∧
            (wreck.turn fun e => e.index != 1).settle Config.standard limit =
              (.ok report, after.turn fun e => e.index != 1) :=
  ⟨by decide, runs_turned_alike Config.standard (by decide) fun e => e.index != 1⟩

end Simulation

end SpringLayout
