import SpringLayout.Proofs.Force.Numbered
import SpringLayout.Proofs.Graph.Verdict

/-!
What a step checks, and that it checks enough.

A step is refused for lengths that differ, and only then for an edge astray. `stepByNumber?` is the
step on plain arrays, as they are given: it looks every vertex up by its number, among positions,
velocities and forces alike, and is none where one is not found. Main statement: what is not refused
is a step of which every vertex is found (`Simulation.step_checksFirst`).
-/

namespace SpringLayout

namespace Simulation

variable {α : Type} [PolarScalar α]

/-! ### The step by numbers -/

/-- The velocities after the force on vertex `i` is taken in. -/
def accelerate? (c : Config α) (velocities : Array (Vec α)) :
    Vec α × Nat → Option (Array (Vec α))
  | (force, i) => do
    let v ← velocities[i]?
    return velocities.setIfInBounds i (v * c.damping + force)

/-- The step on plain arrays. There is none where a vertex is not found by its number. -/
def stepByNumber? (c : Config α) (s : Simulation α) : Option (StepOutcome α × Simulation α) := do
  let tally ← Tally.scatter? c s.positions s.edges
  let velocities ← tally.forces.toList.zipIdx.foldlM (accelerate? c) s.velocities
  let squares := tally.forces.toList.map Vec.lengthSq
  return (
    { settled := squares.all fun f => decide (f ≤ c.minForceSq)
      peakForceSq := squares.foldl Scalar.greater ((0 : Nat) : α)
      guardedPairs := tally.guarded },
    { s with
      velocities := velocities
      positions := Array.zipWith (fun (p v : Vec α) => p + v) s.positions velocities })

/-- Where each of the velocities to come has its force, all are found. -/
theorem foldlM_accelerate (c : Config α) (done velocities forces : List (Vec α))
    (same : velocities.length = forces.length) :
    (forces.zipIdx done.length).foldlM (accelerate? c) (done ++ velocities).toArray =
      some (done ++
        List.zipWith (fun (v f : Vec α) => v * c.damping + f) velocities forces).toArray := by
  induction forces generalizing done velocities with
  | nil =>
      obtain rfl := List.eq_nil_of_length_eq_zero same
      rfl
  | cons f rest ih =>
      obtain ⟨v, others, rfl⟩ := List.exists_cons_of_length_eq_add_one same
      -- The number of this force is that of the first velocity still to come.
      have taken : accelerate? c (done ++ v :: others).toArray (f, done.length) =
          some (done ++ [v * c.damping + f] ++ others).toArray := by
        simp [accelerate?]
      have further := ih (done ++ [v * c.damping + f]) others (Nat.succ_injective same)
      rw [List.length_append] at further
      rw [List.zipIdx_cons, List.foldlM_cons, taken]
      exact further.trans (by simp)

/-- In a valid state every vertex is found, and the step by numbers is the step. -/
theorem stepByNumber?_of_valid (c : Config α) {s : Simulation α} (valid : s.Valid) :
    ∃ outcome, s.step c = (.ok outcome, (s.step c).2) ∧
      s.stepByNumber? c = some (outcome, (s.step c).2) := by
  have found : Tally.scatter? c s.positions s.edges =
      some (Tally.ofPushes (Push.all c s.positions.toVector s.links)) := by
    rw [← map_edge_links valid]
    exact Tally.scatter?_toArray c s.positions.toVector s.links
  have sped : (Push.total (Push.all c s.positions.toVector s.links)).toArray.toList.zipIdx.foldlM
      (accelerate? c) s.velocities = some ((s.system valid).step c).2.velocities.toArray := by
    have all := foldlM_accelerate c [] s.velocities.toList
      (Push.total (Push.all c s.positions.toVector s.links)).toArray.toList
      (by simp [valid.velocities_size])
    refine all.trans (congrArg some ?_)
    apply Array.toList_inj.mp
    exact Array.toList_zipWith.symm
  refine ⟨((s.system valid).step c).1, ?_, ?_⟩
  · rw [step_of_valid c valid]
  · rw [step_of_valid c valid]
    -- Past both lookups the two steps are the same expressions.
    refine Option.bind_eq_some_iff.mpr ⟨_, found, ?_⟩
    exact Option.bind_eq_some_iff.mpr ⟨_, sped, rfl⟩

/-! ### Checks before a step -/

/-- What a step is refused for, and that it can be taken where it is not refused. -/
structure ChecksFirst (c : Config α) (s : Simulation α) : Prop where
  /-- Different lengths are refused whatever the edges are, and nothing else is refused as such. -/
  mismatch_iff : ∀ positions velocities,
    (s.step c).1 = .error (.lengthMismatch positions velocities) ↔
      s.positions.size ≠ s.velocities.size ∧
        positions = s.positions.size ∧ velocities = s.velocities.size
  astray_iff : s.positions.size = s.velocities.size →
    ((∃ id e count, (s.step c).1 = .error (.invalidEdge id e count)) ↔
      ∃ e ∈ s.edges, s.positions.size ≤ e.head.index ∨ s.positions.size ≤ e.tail.index)
  /-- Of the edges astray the first is named. -/
  first_astray : s.positions.size = s.velocities.size →
    EdgeVerdict s.positions.size s.edges ((s.step c).1.map fun _ => ())
  intact : ∀ e, (s.step c).1 = .error e → (s.step c).2 = s
  /-- All vertices that the step looks up are there. -/
  taken : s.positions.size = s.velocities.size →
    (∀ e ∈ s.edges, e.head.index < s.positions.size ∧ e.tail.index < s.positions.size) →
    ∃ outcome after, s.step c = (.ok outcome, after) ∧
      after.positions.size = s.positions.size ∧ after.velocities.size = s.velocities.size ∧
      s.stepByNumber? c = some (outcome, after)

/-- Every state is checked before its step, first for the lengths and then for the edges. -/
theorem step_checksFirst (c : Config α) (s : Simulation α) : ChecksFirst c s where
  mismatch_iff positions velocities := by
    rw [step_eq_error_iff]
    by_cases same : s.positions.size = s.velocities.size
    · refine iff_of_false (fun refused => ?_) fun apart => apart.1 same
      have verdict := edgeVerdict_validate same
      rw [refused] at verdict
      cases verdict
    · rw [validate_eq, if_neg (Ne.symm same)]
      constructor
      · rintro ⟨⟩
        exact ⟨same, rfl, rfl⟩
      · rintro ⟨-, rfl, rfl⟩
        rfl
  astray_iff same := by
    simp only [step_eq_error_iff]
    exact (edgeVerdict_validate same).exists_error_iff
  first_astray same := by
    rw [map_step]
    exact edgeVerdict_validate same
  intact e refused := by
    rw [step_of_misfit c ((step_eq_error_iff c e).mp refused)]
  taken same within := by
    obtain ⟨outcome, taken, found⟩ := stepByNumber?_of_valid c ⟨same.symm, within⟩
    exact ⟨outcome, _, taken, positions_size_step c s, velocities_size_step c s, found⟩

end Simulation

end SpringLayout
