import SpringLayout.Proofs.Plane.Translation
import SpringLayout.Proofs.Simulation.Matched

/-!
Simulations moved by one displacement, over exact numbers.

Forces are made of displacements between vertices, in every branch of the guard, so they are the
same wherever the graph sits; and a vertex that is moved by its velocity ends up as far off as it
started. A step therefore answers the same and leaves the same state, moved
(`Simulation.step_translate`), and so do any number of steps in a row
(`Simulation.advance_translate`).
-/

namespace SpringLayout

variable (t : Vec ℝ)

/-! ### Forces -/

theorem Separation.between_translate (minDistance : ℝ) (i j : Nat) (p q : Vec ℝ) :
    between minDistance i j (p + t) (q + t) = between minDistance i j p q := by
  rw [between, between, Vec.translate_sub_translate]

namespace Push

variable {n : Nat} (c : Config ℝ) (positions : Vector (Vec ℝ) n)

theorem spring_translate (l : Link n) :
    spring c (positions.map (· + t)) l = spring c positions l := by
  simp only [spring, Fin.getElem_fin, Vector.getElem_map, Separation.between_translate]

theorem repulsion_translate (i j : Fin n) :
    repulsion c (positions.map (· + t)) i j = repulsion c positions i j := by
  simp only [repulsion, Fin.getElem_fin, Vector.getElem_map, Separation.between_translate]

/-- The pushes among vertices that are all moved alike are the same. -/
theorem all_translate (links : List (Link n)) :
    all c (positions.map (· + t)) links = all c positions links := by
  simp only [all, funext (spring_translate t c positions), repulsion_translate]

end Push

/-! ### Steps -/

namespace System

variable {n : Nat}

/-- The vertices moved by `t`, in the same motion. -/
noncomputable def translate (s : System ℝ n) : System ℝ n :=
  { s with positions := s.positions.map (· + t) }

theorem moveBy_translate (c : Config ℝ) (forces : Vector (Vec ℝ) n) (s : System ℝ n) :
    (s.translate t).moveBy c forces = (s.moveBy c forces).translate t := by
  simp only [moveBy, translate]
  congr 1
  apply Vector.ext
  intro i inside
  simp only [Vector.getElem_zipWith, Vector.getElem_map, Vec.translate_add]

theorem step_translate (c : Config ℝ) (s : System ℝ n) :
    (s.translate t).step c = ((s.step c).1, (s.step c).2.translate t) := by
  have pushes : Push.all c (s.translate t).positions (s.translate t).links =
      Push.all c s.positions s.links := Push.all_translate t c s.positions s.links
  rw [step, pushes, moveBy_translate]
  rfl

end System

namespace Simulation

/-- The vertices moved by `t`, in the same motion. -/
noncomputable def translate (s : Simulation ℝ) : Simulation ℝ :=
  { s with positions := s.positions.map (· + t) }

theorem validate_translate (s : Simulation ℝ) : (s.translate t).validate = s.validate := by
  apply validate_congr
  · exact Array.size_map
  · rfl
  · rfl

theorem translate_ofVectors {n : Nat} (positions velocities : Vector (Vec ℝ) n)
    (edges : List Edge) :
    (ofVectors positions velocities edges).translate t =
      ofVectors (positions.map (· + t)) velocities edges := by
  simp only [translate, ofVectors, Vector.toArray_map]

theorem step_translate_ofVectors {n : Nat} (c : Config ℝ) (positions velocities : Vector (Vec ℝ) n)
    {edges : List Edge} (within : ∀ e ∈ edges, e.Within n) :
    ((ofVectors positions velocities edges).translate t).step c =
      let stepped := (ofVectors positions velocities edges).step c
      (stepped.1, stepped.2.translate t) := by
  have moved : System.step c
      ⟨positions.map (· + t), velocities, edges.filterMap (Edge.link? n)⟩ = _ :=
    System.step_translate t c ⟨positions, velocities, _⟩
  rw [translate_ofVectors, step_ofVectors c _ _ within, moved, step_ofVectors c _ _ within]
  dsimp only
  rw [translate_ofVectors]
  rfl

/-- A step answers the same wherever the graph sits, and moves the vertices alike. -/
theorem step_translate (c : Config ℝ) (s : Simulation ℝ) :
    (s.translate t).step c = ((s.step c).1, (s.step c).2.translate t) := by
  by_cases valid : s.Valid
  · rw [valid.eq_ofVectors]
    exact step_translate_ofVectors t c _ _ valid.edges_within
  · obtain ⟨e, misfit⟩ := validate_of_not_valid valid
    rw [step_of_misfit c misfit, step_of_misfit c ((validate_translate t s).trans misfit)]

/-- So do any number of steps in a row. -/
theorem advance_translate (c : Config ℝ) (taken limit : Nat) (s : Simulation ℝ) :
    (s.translate t).advance c taken limit =
      ((s.advance c taken limit).1, (s.advance c taken limit).2.translate t) := by
  induction limit generalizing s taken with
  | zero => rfl
  | succ limit ih =>
      rw [advance, advance, step_translate]
      cases s.step c with
      | mk answer after =>
          cases answer with
          | error e => rfl
          | ok outcome =>
              dsimp only
              cases outcome.settled with
              | true => rfl
              | false => exact ih (taken + 1) after

end Simulation

end SpringLayout
