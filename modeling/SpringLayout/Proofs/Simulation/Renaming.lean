import SpringLayout.Proofs.Force.Renaming
import SpringLayout.Proofs.Simulation.Gathering
import SpringLayout.Proofs.Simulation.Matched

/-!
No vertex is favoured for its name, over exact numbers.

`Simulation.Renamed` says that two states are the same up to the names of the vertices and the order
of the edges. Main statement: where no two vertices coincide, a step keeps such states the same and
has the same outcome in both (`Simulation.step_renamed`). Vertices that coincide are
pushed apart along a direction that is made up from their names, which is why they are left out.
-/

namespace SpringLayout

variable {n : Nat} (π : Equiv.Perm (Fin n))

/-! ### Edges between renamed vertices -/

namespace VertexId

/-- The vertex under its new name. What is past the last of `n` vertices has no other. -/
def rename (v : VertexId) : VertexId :=
  if h : v.Within n then ⟨π ⟨v.index, h⟩⟩ else v

theorem rename_of_within {v : VertexId} (within : v.Within n) :
    v.rename π = ⟨π ⟨v.index, within⟩⟩ := dif_pos within

theorem within_rename_iff {v : VertexId} : (v.rename π).Within n ↔ v.Within n := by
  unfold rename
  split
  · next within => exact iff_of_true (π ⟨v.index, within⟩).isLt within
  · rfl

end VertexId

namespace Edge

/-- The edge between the same vertices under their new names. -/
def rename (e : Edge) : Edge := ⟨e.head.rename π, e.tail.rename π⟩

theorem within_rename_iff {e : Edge} : (e.rename π).Within n ↔ e.Within n :=
  and_congr (VertexId.within_rename_iff π) (VertexId.within_rename_iff π)

theorem link?_rename (e : Edge) : (e.rename π).link? n = (e.link? n).map (Link.rename π) := by
  by_cases within : e.Within n
  · have same : e.rename π = (Link.mk (π ⟨_, within.1⟩) (π ⟨_, within.2⟩)).edge := by
      rw [rename, VertexId.rename_of_within π within.1, VertexId.rename_of_within π within.2]
      rfl
    rw [link?_eq_some_iff.mpr same.symm, link?, dif_pos within]
    rfl
  · rw [link?, link?, dif_neg within, dif_neg (mt (within_rename_iff π).mp within)]
    rfl

theorem filterMap_link?_rename (edges : List Edge) :
    (edges.map (rename π)).filterMap (link? n) =
      (edges.filterMap (link? n)).map (Link.rename π) := by
  rw [List.filterMap_map, List.map_filterMap]
  exact congrArg (List.filterMap · edges) (funext (link?_rename π))

end Edge

/-! ### Systems -/

/-- The systems are the same up to the names of the vertices and the order of the links: vertex `v`
of the one is vertex `π v` of the other. -/
structure System.Renamed {α : Type} (s s' : System α n) : Prop where
  positions : ∀ v, s'.positions.get (π v) = s.positions.get v
  velocities : ∀ v, s'.velocities.get (π v) = s.velocities.get v
  links : s'.links.Perm (s.links.map (Link.rename π))

theorem toList_perm_of_renamed {α : Type} {a a' : Vector α n}
    (renamed : ∀ v, a'.get (π v) = a.get v) : a'.toList.Perm a.toList := by
  have listed : ∀ b : Vector α n, b.toList = List.ofFn b.get := by
    intro b
    refine List.ext_getElem (by simp) fun v _ _ => ?_
    rw [List.getElem_ofFn]
    rfl
  have same : a.get = a'.get ∘ π := funext fun v => (renamed v).symm
  rw [listed, listed, same]
  exact (π.ofFn_comp_perm a'.get).symm

variable (c : Config ℝ)

/-- The outcome depends on the forces, not on whose they are. -/
theorem StepOutcome.ofForces_rename {pushes pushes' : List (Push ℝ n)}
    {forces forces' : Vector (Vec ℝ) n} (renamed : ∀ v, forces'.get (π v) = forces.get v)
    (guarded : pushes'.countP (fun p => p.guarded) = pushes.countP (fun p => p.guarded)) :
    ofForces c pushes' forces' = ofForces c pushes forces := by
  have squares := (toList_perm_of_renamed π renamed).map Vec.lengthSq
  have commutes : RightCommutative (Scalar.greater : ℝ → ℝ → ℝ) := by
    constructor
    intro a b d
    simp only [Scalar.greater_real, max_right_comm]
  simp only [ofForces, guarded, squares.all_eq, squares.foldl_eq]

variable {π}

theorem System.Renamed.step {s s' : System ℝ n} (renamed : Renamed π s s')
    (apart : Push.Apart s.positions) :
    (s'.step c).1 = (s.step c).1 ∧ Renamed π (s.step c).2 (s'.step c).2 := by
  have forces := Push.get_total_all_rename c apart renamed.positions renamed.links
  have guarded := Push.countP_guarded_rename c apart renamed.positions renamed.links
  have velocities : ∀ v, (s'.step c).2.velocities.get (π v) = (s.step c).2.velocities.get v := by
    intro v
    rw [get_velocities_step, get_velocities_step, renamed.velocities, ← Push.get_total_all,
      ← Push.get_total_all, forces]
  refine ⟨StepOutcome.ofForces_rename π c forces guarded, ?_, velocities, renamed.links⟩
  intro v
  rw [get_positions_step, get_positions_step, renamed.positions, velocities]

/-! ### Simulations -/

theorem Vec.abs_sub_x_le_dist (p q : Vec ℝ) : |p.x - q.x| ≤ p.dist q := by
  refine Real.abs_le_sqrt ?_
  rw [sq]
  exact le_add_of_nonneg_right (mul_self_nonneg _)

namespace Simulation

/-- The states are the same up to the names of the vertices and the order of the edges: vertex `v`
of the one is vertex `π v` of the other. -/
structure Renamed {α : Type} (π : Equiv.Perm (Fin n)) (s s' : Simulation α) : Prop where
  positions_size : s.positions.size = n ∧ s'.positions.size = n
  velocities_size : s'.velocities.size = s.velocities.size
  positions : ∀ v : Fin n, s'.positions[(π v).val]? = s.positions[v.val]?
  velocities : ∀ v : Fin n, s'.velocities[(π v).val]? = s.velocities[v.val]?
  edges : s'.edges.Perm (s.edges.map (Edge.rename π))

/-- No two vertices are as close as `2⁻⁵²`. -/
def Apart (s : Simulation ℝ) : Prop :=
  ∀ (i j : Nat) (p q : Vec ℝ), i ≠ j → s.positions[i]? = some p → s.positions[j]? = some q →
    Scalar.epsilon < p.dist q

section Vectors

variable {α : Type} {positions positions' velocities velocities' : Vector (Vec α) n}
  {edges edges' : List Edge}

theorem exists_ofVectors {s : Simulation α} (size : s.positions.size = n)
    (size' : s.velocities.size = n) :
    ∃ (positions velocities : Vector (Vec α) n) (edges : List Edge),
      s = ofVectors positions velocities edges :=
  ⟨⟨s.positions, size⟩, ⟨s.velocities, size'⟩, s.edges, rfl⟩

theorem renamed_ofVectors_iff :
    Renamed π (ofVectors positions velocities edges) (ofVectors positions' velocities' edges') ↔
      (∀ v, positions'.get (π v) = positions.get v) ∧
        (∀ v, velocities'.get (π v) = velocities.get v) ∧
          edges'.Perm (edges.map (Edge.rename π)) := by
  have place : ∀ (a : Vector (Vec α) n) (v : Fin n), a.toArray[v.val]? = some (a.get v) := by
    intro a v
    exact Array.getElem?_eq_some_iff.mpr ⟨by simp, rfl⟩
  constructor
  · intro renamed
    refine ⟨fun v => ?_, fun v => ?_, renamed.edges⟩
    · have := renamed.positions v
      rw [ofVectors, ofVectors, place, place] at this
      exact Option.some_inj.mp this
    · have := renamed.velocities v
      rw [ofVectors, ofVectors, place, place] at this
      exact Option.some_inj.mp this
  · rintro ⟨moved, moved', relisted⟩
    have sizes := velocities'.size_toArray.trans velocities.size_toArray.symm
    refine ⟨⟨positions.size_toArray, positions'.size_toArray⟩, sizes, fun v => ?_, fun v => ?_,
      relisted⟩
    · rw [ofVectors, ofVectors, place, place, moved]
    · rw [ofVectors, ofVectors, place, place, moved']

theorem apart_of_ofVectors {positions velocities : Vector (Vec ℝ) n}
    (apart : (ofVectors positions velocities edges).Apart) : Push.Apart positions := by
  intro i j distinct
  exact apart i j _ _ (Fin.val_ne_of_ne distinct)
    (Array.getElem?_eq_some_iff.mpr ⟨by simp [ofVectors], rfl⟩)
    (Array.getElem?_eq_some_iff.mpr ⟨by simp [ofVectors], rfl⟩)

end Vectors

/-- A step of a state whose vertices stand apart takes no notice of names: with the vertices renamed
and the edges in another order it has the same outcome, and leaves the same places and velocities
under the new names. -/
theorem step_renamed {s s' : Simulation ℝ} (valid : s.Valid) (apart : s.Apart)
    (renamed : Renamed π s s') :
    ∃ outcome after after', s.step c = (.ok outcome, after) ∧ s'.step c = (.ok outcome, after') ∧
      Renamed π after after' := by
  obtain ⟨size, size'⟩ := renamed.positions_size
  have sizes := valid.velocities_size.trans size
  obtain ⟨positions, velocities, edges, rfl⟩ := exists_ofVectors size sizes
  obtain ⟨positions', velocities', edges', rfl⟩ :=
    exists_ofVectors size' (renamed.velocities_size.trans sizes)
  obtain ⟨moved, moved', relisted⟩ := renamed_ofVectors_iff.mp renamed
  have within : ∀ e ∈ edges, e.Within n := size ▸ valid.edges_within
  have within' : ∀ e ∈ edges', e.Within n := by
    intro e mem
    obtain ⟨f, listed, rfl⟩ := List.mem_map.mp (relisted.mem_iff.mp mem)
    exact (Edge.within_rename_iff π).mpr (within f listed)
  have relinked := (relisted.filterMap (Edge.link? n)).trans
    (.of_eq (Edge.filterMap_link?_rename π edges))
  have same : System.Renamed π ⟨positions, velocities, edges.filterMap (Edge.link? n)⟩
      ⟨positions', velocities', edges'.filterMap (Edge.link? n)⟩ := ⟨moved, moved', relinked⟩
  obtain ⟨outcome, stepped⟩ := same.step c (apart_of_ofVectors apart)
  have answered := step_ofVectors c positions velocities within
  have answered' := step_ofVectors c positions' velocities' within'
  dsimp only at answered'
  rw [outcome] at answered'
  exact ⟨_, _, _, answered, answered',
    renamed_ofVectors_iff.mpr ⟨stepped.positions, stepped.velocities, relisted⟩⟩

/-- Parallel edges, a loop, and an edge between the ends of a row of three. -/
def rowEdges : List Edge := [⟨⟨0⟩, ⟨1⟩⟩, ⟨⟨1⟩, ⟨0⟩⟩, ⟨⟨2⟩, ⟨2⟩⟩, ⟨⟨0⟩, ⟨2⟩⟩]

/-- Three vertices in a row. -/
noncomputable def row (near far : ℝ) : Simulation ℝ where
  positions := #[⟨0, 0⟩, ⟨near, 0⟩, ⟨far, 0⟩]
  velocities := #[⟨1, 0⟩, ⟨0, 0⟩, ⟨0, -1⟩]
  edges := rowEdges

/-- The row with its last vertex listed first, and its edges backwards. -/
noncomputable def rowFromLast (near far : ℝ) : Simulation ℝ where
  positions := #[⟨far, 0⟩, ⟨0, 0⟩, ⟨near, 0⟩]
  velocities := #[⟨0, -1⟩, ⟨1, 0⟩, ⟨0, 0⟩]
  edges := (rowEdges.map (Edge.rename (finRotate 3))).reverse

variable {near far : ℝ}

theorem valid_row : (row near far).Valid :=
  ⟨rfl, show ∀ e ∈ rowEdges, e.Within 3 by decide⟩

theorem apart_row (first : Scalar.epsilon < near) (second : near + Scalar.epsilon < far) :
    (row near far).Apart := by
  have pos := Scalar.epsilon_real_pos
  have along : ∀ (i : Nat) (p : Vec ℝ), (row near far).positions[i]? = some p →
      i = 0 ∧ p.x = 0 ∨ i = 1 ∧ p.x = near ∨ i = 2 ∧ p.x = far
    | 0, p, found => by cases found; exact .inl ⟨rfl, rfl⟩
    | 1, p, found => by cases found; exact .inr (.inl ⟨rfl, rfl⟩)
    | 2, p, found => by cases found; exact .inr (.inr ⟨rfl, rfl⟩)
  intro i j p q distinct left right
  refine lt_of_lt_of_le ?_ (Vec.abs_sub_x_le_dist p q)
  rw [lt_abs]
  rcases along i p left with ⟨rfl, hp⟩ | ⟨rfl, hp⟩ | ⟨rfl, hp⟩ <;>
    rcases along j q right with ⟨rfl, hq⟩ | ⟨rfl, hq⟩ | ⟨rfl, hq⟩ <;>
    first
      | exact absurd rfl distinct
      | exact .inl (by linarith)
      | exact .inr (by linarith)

theorem renamed_row : Renamed (finRotate 3) (row near far) (rowFromLast near far) where
  positions_size := ⟨rfl, rfl⟩
  velocities_size := rfl
  positions v := by fin_cases v <;> rfl
  velocities v := by fin_cases v <;> rfl
  edges := List.reverse_perm _

/-- Here two of the vertices are closer than the least distance. -/
theorem step_renamed_row :
    (row (1 / 2) 4).Valid ∧ (row (1 / 2) 4).Apart ∧
      Renamed (finRotate 3) (row (1 / 2) 4) (rowFromLast (1 / 2) 4) ∧
      ∃ outcome after after',
        (row (1 / 2) 4).step Config.standard = (.ok outcome, after) ∧
          (rowFromLast (1 / 2) 4).step Config.standard = (.ok outcome, after') ∧
          Renamed (finRotate 3) after after' := by
  have apart : (row (1 / 2) 4).Apart :=
    apart_row (by norm_num [Scalar.epsilon]) (by norm_num [Scalar.epsilon])
  exact ⟨valid_row, apart, renamed_row,
    step_renamed Config.standard valid_row apart renamed_row⟩

end Simulation

end SpringLayout
