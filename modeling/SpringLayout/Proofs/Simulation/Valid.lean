import SpringLayout.Simulation.Settle

/-!
States whose parts fit together.

`Simulation.Valid` says when a state can be read as a system, `Simulation.system` reads it, and
`Simulation.step_of_valid` says what a step then does. A step never refuses a valid state and always
leaves one (`Simulation.Valid.step`).
-/

namespace SpringLayout

namespace Simulation

section Reading

variable {α : Type} {s : Simulation α}

/-- The parts of the state fit together: one velocity for each position, and no edge with an end
past the last vertex. -/
structure Valid (s : Simulation α) : Prop where
  velocities_size : s.velocities.size = s.positions.size
  edges_within : ∀ e ∈ s.edges, e.Within s.positions.size

instance (s : Simulation α) : Decidable s.Valid :=
  decidable_of_iff
    (s.velocities.size = s.positions.size ∧ ∀ e ∈ s.edges, e.Within s.positions.size)
    ⟨fun ⟨sizes, within⟩ => ⟨sizes, within⟩, fun valid => ⟨valid.1, valid.2⟩⟩

/-- The edges of the state as links between its vertices. -/
def links (s : Simulation α) : List (Link s.positions.size) :=
  s.edges.filterMap (Edge.link? s.positions.size)

/-- A valid state as a system. -/
def system (s : Simulation α) (valid : s.Valid) : System α s.positions.size where
  positions := s.positions.toVector
  velocities := ⟨s.velocities, valid.velocities_size⟩
  links := s.links

theorem map_edge_filterMap_link? {n : Nat} {edges : List Edge}
    (within : ∀ e ∈ edges, e.Within n) :
    (edges.filterMap (Edge.link? n)).map Link.edge = edges := by
  induction edges with
  | nil => rfl
  | cons e rest ih =>
      have inside : e.Within n := within e List.mem_cons_self
      have link : e.link? n = some ⟨⟨e.head.index, inside.1⟩, ⟨e.tail.index, inside.2⟩⟩ :=
        dif_pos inside
      rw [List.filterMap_cons, link, List.map_cons,
        ih fun f mem => within f (List.mem_cons_of_mem _ mem)]
      rfl

/-- No edge of a valid state is lost when the edges are read as links. -/
theorem map_edge_links (valid : s.Valid) : s.links.map Link.edge = s.edges :=
  map_edge_filterMap_link? valid.edges_within

theorem firstStray?_eq_none_iff {count : Nat} {edges : List Edge} :
    firstStray? count edges = none ↔ ∀ e ∈ edges, e.Within count := by
  rw [firstStray?, List.find?_eq_none]
  constructor
  · intro none e mem
    obtain ⟨k, bound, rfl⟩ := List.getElem_of_mem mem
    have listed : (edges[k], k) ∈ edges.zipIdx := by
      rw [List.mem_zipIdx_iff_getElem?]
      exact List.getElem?_eq_getElem bound
    simpa using none _ listed
  · intro within p listed
    have mem : p.1 ∈ edges := List.mem_of_getElem? (List.mem_zipIdx_iff_getElem?.mp listed)
    simpa using within p.1 mem

/-- What the search for an edge astray finds is the first one. -/
theorem firstStray?_eq_some {count k : Nat} {edges : List Edge} {e : Edge}
    (found : firstStray? count edges = some (e, k)) :
    edges[k]? = some e ∧ ¬ e.Within count ∧ ∀ earlier ∈ edges.take k, earlier.Within count := by
  obtain ⟨astray, i, bound, found, before⟩ := List.find?_eq_some_iff_getElem.mp found
  rw [List.getElem_zipIdx, Nat.zero_add] at found
  cases found
  rw [List.length_zipIdx] at bound
  refine ⟨List.getElem?_eq_getElem bound, of_decide_eq_true astray, fun earlier mem => ?_⟩
  obtain ⟨j, less, rfl⟩ := List.getElem_of_mem mem
  rw [List.length_take] at less
  simpa using before j (by omega)

theorem system?_of_valid (valid : s.Valid) : s.system? = .ok (s.system valid) := by
  unfold system?
  rw [dif_pos valid.velocities_size, firstStray?_eq_none_iff.mpr valid.edges_within]
  rfl

theorem system?_of_not_valid (invalid : ¬ s.Valid) : ∃ e, s.system? = .error e := by
  unfold system?
  by_cases sizes : s.velocities.size = s.positions.size
  · rw [dif_pos sizes]
    cases stray : firstStray? s.positions.size s.edges with
    | none => exact absurd ⟨sizes, firstStray?_eq_none_iff.mp stray⟩ invalid
    | some found => exact ⟨_, rfl⟩
  · exact ⟨_, dif_neg sizes⟩

end Reading

section Motion

variable {α : Type} [PolarScalar α] {s : Simulation α}

/-- The step of a valid state is the step of its system. -/
theorem step_of_valid (c : Config α) (valid : s.Valid) :
    s.step c =
      (.ok ((s.system valid).step c).1,
        { s with
          positions := ((s.system valid).step c).2.positions.toArray
          velocities := ((s.system valid).step c).2.velocities.toArray }) := by
  unfold step
  rw [system?_of_valid valid]

theorem step_ok (c : Config α) (valid : s.Valid) :
    ∃ outcome, s.step c = (.ok outcome, (s.step c).2) := by
  rw [step_of_valid c valid]
  exact ⟨_, rfl⟩

theorem step_of_mismatch (c : Config α) (apart : s.velocities.size ≠ s.positions.size) :
    s.step c = (.error (.lengthMismatch s.positions.size s.velocities.size), s) := by
  unfold step system?
  rw [dif_neg apart]

theorem step_of_firstStray (c : Config α) (sizes : s.velocities.size = s.positions.size)
    {e : Edge} {k : Nat} (stray : firstStray? s.positions.size s.edges = some (e, k)) :
    s.step c = (.error (.invalidEdge ⟨k⟩ e s.positions.size), s) := by
  unfold step system?
  rw [dif_pos sizes, stray]

/-- A state that is not valid is refused, and stays as it is. -/
theorem step_of_not_valid (c : Config α) (invalid : ¬ s.Valid) :
    ∃ e, s.step c = (.error e, s) := by
  obtain ⟨e, refused⟩ := system?_of_not_valid invalid
  refine ⟨e, ?_⟩
  unfold step
  rw [refused]

/-- No step, refused or not, touches the edges. -/
@[simp] theorem edges_step (c : Config α) (s : Simulation α) : (s.step c).2.edges = s.edges := by
  by_cases valid : s.Valid
  · rw [step_of_valid c valid]
  · obtain ⟨e, refused⟩ := step_of_not_valid c valid
    rw [refused]

/-- No step, refused or not, changes how many positions there are. -/
@[simp] theorem positions_size_step (c : Config α) (s : Simulation α) :
    (s.step c).2.positions.size = s.positions.size := by
  by_cases valid : s.Valid
  · rw [step_of_valid c valid]
    exact Vector.size_toArray _
  · obtain ⟨e, refused⟩ := step_of_not_valid c valid
    rw [refused]

/-- No step, refused or not, changes how many velocities there are. -/
@[simp] theorem velocities_size_step (c : Config α) (s : Simulation α) :
    (s.step c).2.velocities.size = s.velocities.size := by
  by_cases valid : s.Valid
  · rw [step_of_valid c valid, valid.velocities_size]
    exact Vector.size_toArray _
  · obtain ⟨e, refused⟩ := step_of_not_valid c valid
    rw [refused]

theorem Valid.step (c : Config α) (valid : s.Valid) : (s.step c).2.Valid where
  velocities_size := by rw [velocities_size_step, positions_size_step, valid.velocities_size]
  edges_within := by
    rw [edges_step, positions_size_step]
    exact valid.edges_within

end Motion

end Simulation

end SpringLayout
