import SpringLayout.Proofs.Simulation.Iteration
import SpringLayout.Simulation.Flat

/-!
A step of flat arrays is a step of the state they stand for.

Points written out flat are read back as they were, and flat coordinates in whole pairs are written
out again as they were (`Interleaved.toPoints_ofPoints`, `Interleaved.ofPoints_toPoints`).
`FlatState.Stepping` lists what a flat step may come to, in the order in which the arrays are
checked, and `FlatState.interleavesSteps` says that it comes to nothing else, and that flat steps in
a row go along with as many steps of the state.
-/

namespace SpringLayout

namespace Interleaved

/-! ### Pairs in a flat list -/

section Pairs

variable {β : Type}

theorem getElem?_split_eq_some_iff (a b : β) :
    ∀ (k : Nat) (flat : List β),
      (split flat)[k]? = some (a, b) ↔ flat[2 * k]? = some a ∧ flat[2 * k + 1]? = some b
  | _, [] => by simp [split]
  | _, [_] => by simp [split]
  | 0, _ :: _ :: _ => by simp [split]
  | k + 1, _ :: _ :: rest => by
      simpa [split, Nat.mul_succ] using getElem?_split_eq_some_iff a b k rest

theorem split_take : ∀ (k : Nat) (flat : List β), split (flat.take (2 * k)) = (split flat).take k
  | _, [] => by simp [split]
  | 0, [_] => rfl
  | _ + 1, [_] => by simp [split, Nat.mul_succ]
  | 0, _ :: _ :: _ => rfl
  | k + 1, _ :: _ :: rest => by simp [split, Nat.mul_succ, split_take k rest]

/-- In a flat list of whole pairs, what holds of all pairs holds of all values. -/
theorem forall_mem_split_iff {P : β → Prop} :
    ∀ flat : List β, flat.length % 2 = 0 →
      ((∀ p ∈ split flat, P p.1 ∧ P p.2) ↔ ∀ b ∈ flat, P b)
  | [], _ => by simp [split]
  | [_], odd => by simp at odd
  | _ :: _ :: rest, even => by
      have whole : rest.length % 2 = 0 := by
        rw [List.length_cons, List.length_cons] at even
        omega
      rw [split, List.forall_mem_cons, List.forall_mem_cons, List.forall_mem_cons,
        forall_mem_split_iff rest whole, and_assoc]

end Pairs

/-! ### Points in a flat array -/

section Points

variable {α : Type}

theorem toPoints_ofPoints (points : Array (Vec α)) : toPoints (ofPoints points) = points := by
  simp [toPoints, ofPoints, split_join, Function.comp_def]

theorem ofPoints_toPoints {flat : Array α} (even : flat.size % 2 = 0) :
    ofPoints (toPoints flat) = flat := by
  simp [toPoints, ofPoints, Function.comp_def, join_split flat.toList even]

theorem getElem?_toPoints_eq_some_iff {flat : Array α} {k : Nat} {p : Vec α} :
    (toPoints flat)[k]? = some p ↔ flat[2 * k]? = some p.x ∧ flat[2 * k + 1]? = some p.y := by
  obtain ⟨flat⟩ := flat
  simp only [toPoints, List.getElem?_toArray, List.getElem?_map, Option.map_eq_some_iff]
  rw [← getElem?_split_eq_some_iff]
  constructor
  · rintro ⟨c, found, rfl⟩
    exact found
  · intro found
    exact ⟨_, found, rfl⟩

@[simp] theorem size_toPoints (flat : Array α) : (toPoints flat).size = flat.size / 2 := by
  simp [toPoints]

@[simp] theorem size_ofPoints (points : Array (Vec α)) :
    (ofPoints points).size = 2 * points.size := by
  simp [ofPoints]

end Points

/-! ### Edges in a flat list -/

/-- The edges of a flat list of heads and tails; a value left over is dropped. -/
def pairedEdges (flat : List Nat) : List Edge := (split flat).map fun ends => ⟨⟨ends.1⟩, ⟨ends.2⟩⟩

/-- Edge number `k` of a flat list of heads and tails is `e`, and the first with an end past the
last of `count` vertices. -/
structure FirstStray (count : Nat) (flat : List Nat) (k : Nat) (e : Edge) : Prop where
  head : flat[2 * k]? = some e.head.index
  tail : flat[2 * k + 1]? = some e.tail.index
  astray : ¬ e.Within count
  before : ∀ v ∈ flat.take (2 * k), v < count

theorem getElem?_pairedEdges_eq_some_iff {flat : List Nat} {k : Nat} {e : Edge} :
    (pairedEdges flat)[k]? = some e ↔
      flat[2 * k]? = some e.head.index ∧ flat[2 * k + 1]? = some e.tail.index := by
  rw [← getElem?_split_eq_some_iff, pairedEdges, List.getElem?_map, Option.map_eq_some_iff]
  constructor
  · rintro ⟨ends, found, rfl⟩
    exact found
  · intro found
    exact ⟨_, found, rfl⟩

theorem forall_mem_pairedEdges_iff {count : Nat} {flat : List Nat} (even : flat.length % 2 = 0) :
    (∀ e ∈ pairedEdges flat, e.Within count) ↔ ∀ v ∈ flat, v < count := by
  rw [← forall_mem_split_iff flat even, pairedEdges, List.forall_mem_map]

theorem firstStray_of_firstStray? {count k : Nat} {flat : List Nat} {e : Edge}
    (found : Simulation.firstStray? count (pairedEdges flat) = some (e, k)) :
    FirstStray count flat k e := by
  obtain ⟨listed, astray, before⟩ := Simulation.firstStray?_eq_some found
  obtain ⟨head, tail⟩ := getElem?_pairedEdges_eq_some_iff.mp listed
  refine ⟨head, tail, astray, ?_⟩
  have bound : 2 * k + 1 < flat.length := (List.getElem?_eq_some_iff.mp tail).1
  have even : (flat.take (2 * k)).length % 2 = 0 := by
    rw [List.length_take]
    omega
  rw [← forall_mem_pairedEdges_iff even, pairedEdges, split_take, List.map_take]
  exact before

end Interleaved

namespace FlatState

open Interleaved

/-! ### The state that flat arrays stand for -/

section Reading

variable {α : Type} {s : FlatState α} {edges : List Nat}

/-- The flat arrays, read pair by pair. -/
def typed (edges : List Nat) (s : FlatState α) : Simulation α where
  positions := toPoints s.positions
  velocities := toPoints s.velocities
  edges := pairedEdges edges

/-- All flat arrays hold whole pairs. -/
structure Paired (edges : List Nat) (s : FlatState α) : Prop where
  positions : s.positions.size % 2 = 0
  velocities : s.velocities.size % 2 = 0
  edges : edges.length % 2 = 0

theorem simulation?_of_paired (paired : s.Paired edges) :
    s.simulation? edges = .ok (s.typed edges) := by
  unfold simulation? Interleaved.edges checkEven
  rw [Array.length_toList, Array.length_toList, if_pos paired.positions,
    if_pos paired.velocities, if_pos paired.edges]
  rfl

theorem ofSimulation_typed (paired : s.Paired edges) : ofSimulation (s.typed edges) = s := by
  rw [ofSimulation, typed, ofPoints_toPoints paired.positions,
    ofPoints_toPoints paired.velocities]

theorem typed_ofSimulation {t : Simulation α} (same : t.edges = pairedEdges edges) :
    (ofSimulation t).typed edges = t := by
  rw [typed, ofSimulation, toPoints_ofPoints, toPoints_ofPoints, ← same]

theorem paired_ofSimulation (t : Simulation α) (even : edges.length % 2 = 0) :
    (ofSimulation t).Paired edges := by
  refine ⟨?_, ?_, even⟩
  · rw [ofSimulation, size_ofPoints, Nat.mul_mod_right]
  · rw [ofSimulation, size_ofPoints, Nat.mul_mod_right]

end Reading

section Stepping

variable {α : Type} [PolarScalar α]

/-- Flat steps in a row, whether refused or not. -/
def stepped (c : Config α) (edges : List Nat) (s : FlatState α) : Nat → FlatState α
  | 0 => s
  | k + 1 => ((s.stepped c edges k).step c edges).2

/-- What a step of flat arrays may come to: they are checked in this order, and a refusal leaves
them as they are. -/
inductive Stepping (c : Config α) (edges : List Nat) (s : FlatState α) :
    Attempt (FlatState α) (StepOutcome α) → Prop where
  | oddPositions : s.positions.size % 2 = 1 →
      Stepping c edges s (.error (.oddLength .positions s.positions.size), s)
  | oddVelocities : s.positions.size % 2 = 0 → s.velocities.size % 2 = 1 →
      Stepping c edges s (.error (.oddLength .velocities s.velocities.size), s)
  | oddEdges : s.positions.size % 2 = 0 → s.velocities.size % 2 = 0 → edges.length % 2 = 1 →
      Stepping c edges s (.error (.oddLength .edges edges.length), s)
  | mismatch : s.Paired edges → s.velocities.size ≠ s.positions.size →
      Stepping c edges s
        (.error (.lengthMismatch (s.positions.size / 2) (s.velocities.size / 2)), s)
  | stray {k : Nat} {e : Edge} : s.Paired edges → s.velocities.size = s.positions.size →
      FirstStray (s.positions.size / 2) edges k e →
      Stepping c edges s (.error (.invalidEdge ⟨k⟩ e (s.positions.size / 2)), s)
  /-- The step is that of the state that the arrays stand for, and what it leaves fits into them. -/
  | taken {outcome : StepOutcome α} {after : Simulation α} : s.Paired edges →
      s.velocities.size = s.positions.size → (∀ v ∈ edges, v < s.positions.size / 2) →
      (s.typed edges).step c = (.ok outcome, after) →
      (ofSimulation after).positions.size = s.positions.size →
      (ofSimulation after).velocities.size = s.velocities.size →
      Stepping c edges s (.ok outcome, ofSimulation after)

variable {s : FlatState α} {edges : List Nat}

theorem step_of_oddPositions (c : Config α) (odd : ¬ s.positions.size % 2 = 0) :
    s.step c edges = (.error (.oddLength .positions s.positions.size), s) := by
  unfold step simulation? checkEven
  rw [Array.length_toList, if_neg odd]
  rfl

theorem step_of_oddVelocities (c : Config α) (positions : s.positions.size % 2 = 0)
    (odd : ¬ s.velocities.size % 2 = 0) :
    s.step c edges = (.error (.oddLength .velocities s.velocities.size), s) := by
  unfold step simulation? checkEven
  rw [Array.length_toList, Array.length_toList, if_pos positions, if_neg odd]
  rfl

theorem step_of_oddEdges (c : Config α) (positions : s.positions.size % 2 = 0)
    (velocities : s.velocities.size % 2 = 0) (odd : ¬ edges.length % 2 = 0) :
    s.step c edges = (.error (.oddLength .edges edges.length), s) := by
  unfold step simulation? Interleaved.edges checkEven
  rw [Array.length_toList, Array.length_toList, if_pos positions, if_pos velocities, if_neg odd]
  rfl

/-- A flat step is answered as the step of the state, and leaves what that leaves. -/
theorem step_of_paired (c : Config α) (paired : s.Paired edges) :
    s.step c edges =
      (((s.typed edges).step c).1, ofSimulation ((s.typed edges).step c).2) := by
  rw [step, simulation?_of_paired paired]
  dsimp only
  by_cases valid : (s.typed edges).Valid
  · rw [Simulation.step_of_valid c valid]
  · obtain ⟨e, refused⟩ := Simulation.step_of_not_valid c valid
    rw [refused, ofSimulation_typed paired]

theorem stepping_of_paired (c : Config α) (paired : s.Paired edges) :
    s.Stepping c edges (s.step c edges) := by
  have count : (s.typed edges).positions.size = s.positions.size / 2 := size_toPoints _
  have speeds : (s.typed edges).velocities.size = s.velocities.size / 2 := size_toPoints _
  have evenPositions := paired.positions
  have evenVelocities := paired.velocities
  rw [step_of_paired c paired]
  by_cases sizes : s.velocities.size = s.positions.size
  · have fits : (s.typed edges).velocities.size = (s.typed edges).positions.size := by
      rw [count, speeds, sizes]
    cases found : Simulation.firstStray? (s.typed edges).positions.size (s.typed edges).edges with
    | some stray =>
        obtain ⟨e, k⟩ := stray
        rw [Simulation.step_of_firstStray c fits found, ofSimulation_typed paired, count]
        exact .stray paired sizes (firstStray_of_firstStray? (count ▸ found))
    | none =>
        have within := Simulation.firstStray?_eq_none_iff.mp found
        have valid : (s.typed edges).Valid := ⟨fits, within⟩
        obtain ⟨outcome, taken⟩ := Simulation.step_ok c valid
        rw [taken]
        rw [count] at within
        refine .taken paired sizes ((forall_mem_pairedEdges_iff paired.edges).mp within) taken ?_ ?_
        · rw [ofSimulation, size_ofPoints, Simulation.positions_size_step, count]
          omega
        · rw [ofSimulation, size_ofPoints, Simulation.velocities_size_step, speeds]
          omega
  · have apart : (s.typed edges).velocities.size ≠ (s.typed edges).positions.size := by
      rw [count, speeds]
      omega
    rw [Simulation.step_of_mismatch c apart, ofSimulation_typed paired, count, speeds]
    exact .mismatch paired sizes

theorem stepping_step (c : Config α) (edges : List Nat) (s : FlatState α) :
    s.Stepping c edges (s.step c edges) := by
  by_cases positions : s.positions.size % 2 = 0
  · by_cases velocities : s.velocities.size % 2 = 0
    · by_cases pairs : edges.length % 2 = 0
      · exact stepping_of_paired c ⟨positions, velocities, pairs⟩
      · rw [step_of_oddEdges c positions velocities pairs]
        exact .oddEdges positions velocities (Nat.mod_two_ne_zero.mp pairs)
    · rw [step_of_oddVelocities c positions velocities]
      exact .oddVelocities positions (Nat.mod_two_ne_zero.mp velocities)
  · rw [step_of_oddPositions c positions]
    exact .oddPositions (Nat.mod_two_ne_zero.mp positions)

/-- Flat steps in a row go along with steps of the state. -/
theorem stepped_of_paired (c : Config α) (paired : s.Paired edges) (k : Nat) :
    s.stepped c edges k = ofSimulation ((s.typed edges).stepped c k) := by
  induction k with
  | zero => exact (ofSimulation_typed paired).symm
  | succ k ih =>
      have same : ((s.typed edges).stepped c k).edges = pairedEdges edges :=
        Simulation.edges_stepped c _ k
      rw [stepped, ih, step_of_paired c (paired_ofSimulation _ paired.edges),
        typed_ofSimulation same, Simulation.stepped]

theorem outcome_stepped (c : Config α) (paired : s.Paired edges) (k : Nat) :
    ((s.stepped c edges k).step c edges).1 = (((s.typed edges).stepped c k).step c).1 := by
  have same : ((s.typed edges).stepped c k).edges = pairedEdges edges :=
    Simulation.edges_stepped c _ k
  rw [stepped_of_paired c paired, step_of_paired c (paired_ofSimulation _ paired.edges),
    typed_ofSimulation same]

/-- Steps of flat arrays are steps of the state that they stand for. -/
structure InterleavesSteps (c : Config α) (edges : List Nat) (s : FlatState α) : Prop where
  /-- What one step comes to. -/
  stepping : s.Stepping c edges (s.step c edges)
  /-- The next step is answered alike after any number of them. -/
  outcome : s.Paired edges → ∀ k,
    ((s.stepped c edges k).step c edges).1 = (((s.typed edges).stepped c k).step c).1
  stepped : s.Paired edges → ∀ k,
    s.stepped c edges k = ofSimulation ((s.typed edges).stepped c k)
  position? : ∀ k p, (s.typed edges).positions[k]? = some p ↔
    s.positions[2 * k]? = some p.x ∧ s.positions[2 * k + 1]? = some p.y
  velocity? : ∀ k v, (s.typed edges).velocities[k]? = some v ↔
    s.velocities[2 * k]? = some v.x ∧ s.velocities[2 * k + 1]? = some v.y
  edge? : ∀ k e, (s.typed edges).edges[k]? = some e ↔
    edges[2 * k]? = some e.head.index ∧ edges[2 * k + 1]? = some e.tail.index
  read_written : ∀ points : Array (Vec α), toPoints (ofPoints points) = points
  written_read : ∀ flat : Array α, flat.size % 2 = 0 → ofPoints (toPoints flat) = flat

/-- Whatever the flat arrays are, their steps are those of the state that they stand for. -/
theorem interleavesSteps (c : Config α) (edges : List Nat) (s : FlatState α) :
    s.InterleavesSteps c edges where
  stepping := stepping_step c edges s
  outcome paired := outcome_stepped c paired
  stepped paired := stepped_of_paired c paired
  position? _ _ := getElem?_toPoints_eq_some_iff
  velocity? _ _ := getElem?_toPoints_eq_some_iff
  edge? _ _ := getElem?_pairedEdges_eq_some_iff
  read_written := toPoints_ofPoints
  written_read _ := ofPoints_toPoints

end Stepping

end FlatState

end SpringLayout
