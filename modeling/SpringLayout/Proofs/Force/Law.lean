import SpringLayout.Proofs.Force.Balance
import SpringLayout.Proofs.Force.Orientation
import SpringLayout.Simulation.System

/-!
The force law, over exact numbers.

`Separation.Law` says what the guard makes of the displacement between two vertices: its length is
the real distance or the least one, whichever is greater, its direction is kept where there is one,
and from the other end it is the opposite, in each of the three branches. From this follow
the forces: `Push.SpringLaw` and `Push.RepulsionLaw`. Main statement: these laws hold between any
vertices, a repulsion does not grow below the least distance and weakens above it, and they are all
that acts on a vertex in a step (`force_law`).
-/

namespace SpringLayout

/-! ### Separations -/

theorem Scalar.epsilon_real_pos : (0 : ℝ) < Scalar.epsilon := by
  unfold Scalar.epsilon
  positivity

theorem Vec.eq_neg_of_opposite {a b : Vec ℝ} (opposite : a.Opposite b) : a = -b := by
  ext
  · exact Scalar.opposite_real_iff.mp opposite.x
  · exact Scalar.opposite_real_iff.mp opposite.y

namespace Separation

theorem least_real (m : ℝ) : least m = max m Scalar.epsilon := Scalar.greater_real m _

theorem least_real_pos (m : ℝ) : 0 < least m := by
  rw [least_real]
  exact lt_max_of_lt_right Scalar.epsilon_real_pos

theorem length_tieBreak (i j : Nat) : (tieBreak i j : Vec ℝ).length = 1 := by
  unfold tieBreak
  split
  · exact Vec.length_ofAngle _
  · rw [Vec.length_neg, Vec.length_ofAngle]

variable {m : ℝ} {i j : Nat} {p q : Vec ℝ}

theorem between_of_far (far : least m ≤ (p - q).length) :
    between m i j p q = ⟨p - q, (p - q).length, false⟩ := by
  rw [between, if_pos far]

/-- Vertices that are too close are as far apart as the least distance in some direction, their own
where they have one. -/
theorem between_of_near (near : (p - q).length < least m) :
    ∃ direction : Vec ℝ, direction.length = 1 ∧
      (Scalar.epsilon < (p - q).length → direction = (p - q) * (1 / (p - q).length)) ∧
      between m i j p q = ⟨direction * least m, least m, true⟩ := by
  rw [between, if_neg near.not_ge]
  by_cases directed : Scalar.epsilon < (p - q).length
  · have pos : 0 < (p - q).length := Scalar.epsilon_real_pos.trans directed
    refine ⟨(p - q) * (1 / (p - q).length), ?_, fun _ => rfl, ?_⟩
    · rw [Vec.length_mul, abs_of_pos (one_div_pos.mpr pos), mul_one_div_cancel pos.ne']
    · rw [if_pos directed, Nat.cast_one]
  · refine ⟨tieBreak i j, length_tieBreak i j, fun h => absurd h directed, ?_⟩
    rw [if_neg directed]

/-- What is known of the separation from vertex `j` at `q` to vertex `i` at `p`. -/
structure Law (m : ℝ) (i j : Nat) (p q : Vec ℝ) : Prop where
  distance : (between m i j p q).distance = max (p - q).length (max m Scalar.epsilon)
  length_delta : (between m i j p q).delta.length = (between m i j p q).distance
  delta_of_far : max m Scalar.epsilon ≤ (p - q).length → (between m i j p q).delta = p - q
  pointsAlong : Scalar.epsilon < (p - q).length → (between m i j p q).delta.PointsAlong (p - q)
  swap : (between m i j p q).delta = -(between m j i q p).delta
  guarded_iff : (between m i j p q).guarded = true ↔ (p - q).length < max m Scalar.epsilon

theorem law_of_ne (apart : i ≠ j) : Law m i j p q := by
  have swap : (between m i j p q).delta = -(between m j i q p).delta :=
    Vec.eq_neg_of_opposite (between_swap m apart p q).delta
  -- Both guarded branches are one case: the direction may be made up, but it has length one.
  rcases le_or_gt (least m) (p - q).length with far | near
  · have plain : between m i j p q = ⟨p - q, (p - q).length, false⟩ := between_of_far far
    constructor
    · rw [plain, ← least_real, max_eq_left far]
    · rw [plain]
    · intro _
      rw [plain]
    · intro _
      rw [plain]
      exact ⟨1, one_pos, Vec.ext (mul_one _).symm (mul_one _).symm⟩
    · exact swap
    · rw [plain, ← least_real]
      exact iff_of_false Bool.false_ne_true far.not_gt
  · obtain ⟨direction, unit, kept, clamped⟩ := between_of_near (i := i) (j := j) near
    constructor
    · rw [clamped, ← least_real, max_eq_right near.le]
    · rw [clamped, Vec.length_mul, unit, one_mul, abs_of_pos (least_real_pos m)]
    · intro far
      rw [← least_real] at far
      exact absurd far near.not_ge
    · intro directed
      have pos : 0 < (p - q).length := Scalar.epsilon_real_pos.trans directed
      rw [clamped, kept directed]
      exact ⟨1 / (p - q).length * least m, mul_pos (one_div_pos.mpr pos) (least_real_pos m),
        Vec.mul_mul _ _ _⟩
    · exact swap
    · rw [clamped, ← least_real]
      exact iff_of_true rfl near

theorem Law.distance_pos (law : Law m i j p q) : 0 < (between m i j p q).distance := by
  rw [law.distance, ← least_real]
  exact lt_max_of_lt_right (least_real_pos m)

end Separation

/-! ### Forces -/

namespace Push

variable {n : Nat} (c : Config ℝ) (positions : Vector (Vec ℝ) n)

/-- The separation from vertex `j` to vertex `i`. -/
noncomputable def separation (i j : Fin n) : Separation ℝ :=
  Separation.between c.minDistance i j (positions.get i) (positions.get j)

/-- The push acts on two vertices, with opposite forces, and on no other vertex. -/
structure Between (p : Push ℝ n) (i j : Fin n) : Prop where
  on_first : p.on i = p.force
  on_second : p.on j = -p.force
  on_other : ∀ v, v ≠ i → v ≠ j → p.on v = 0

theorem between_ends {p : Push ℝ n} (distinct : p.first ≠ p.second) :
    p.Between p.first p.second where
  on_first := if_pos rfl
  on_second := by rw [on, if_neg distinct, if_pos rfl]
  on_other v first second := by rw [on, if_neg first.symm, if_neg second.symm]

/-- The forces of the spring of a link, by the separation from its tail to its head. -/
structure SpringLaw (l : Link n) : Prop where
  between : (spring c positions l).Between l.head l.tail
  magnitude : (spring c positions l).force.length =
    |c.springStiffness| * |(separation c positions l.tail l.head).distance - c.restLength|
  pointsAlong_iff :
    (spring c positions l).force.PointsAlong (separation c positions l.tail l.head).delta ↔
      0 < c.springStiffness * ((separation c positions l.tail l.head).distance - c.restLength)

/-- The forces of the repulsion of two vertices. -/
structure RepulsionLaw (i j : Fin n) : Prop where
  between : (repulsion c positions i j).Between i j
  magnitude : (repulsion c positions i j).force.length =
    |c.repulsion| / (separation c positions i j).distance ^ 3
  pointsAlong : 0 < c.repulsion →
    (repulsion c positions i j).force.PointsAlong (separation c positions i j).delta

variable {c positions}

theorem law_separation {i j : Fin n} (apart : i ≠ j) :
    Separation.Law c.minDistance i j (positions.get i) (positions.get j) :=
  Separation.law_of_ne (Fin.val_ne_of_ne apart)

theorem springLaw {l : Link n} (apart : l.head ≠ l.tail) : SpringLaw c positions l := by
  have law : Separation.Law c.minDistance l.tail l.head (positions.get l.tail)
      (positions.get l.head) := law_separation apart.symm
  have force : (spring c positions l).force = (separation c positions l.tail l.head).delta *
      (c.springStiffness * ((separation c positions l.tail l.head).distance - c.restLength) /
        (separation c positions l.tail l.head).distance) := rfl
  have pos : 0 < (separation c positions l.tail l.head).distance := law.distance_pos
  have length : (separation c positions l.tail l.head).delta.length = _ := law.length_delta
  constructor
  · exact between_ends apart
  · rw [force, Vec.length_mul, length, abs_div, abs_mul, abs_of_pos pos]
    exact mul_div_cancel₀ _ pos.ne'
  · rw [force, Vec.mul_pointsAlong_iff (length ▸ pos), div_pos_iff_of_pos_right pos]

theorem repulsionLaw {i j : Fin n} (apart : i ≠ j) : RepulsionLaw c positions i j := by
  have law : Separation.Law c.minDistance i j (positions.get i) (positions.get j) :=
    law_separation apart
  have pos : 0 < (separation c positions i j).distance := law.distance_pos
  set d := (separation c positions i j).distance
  have length : (separation c positions i j).delta.length = d := law.length_delta
  have force : (repulsion c positions i j).force =
      (separation c positions i j).delta * (c.repulsion / (d * d * d * d)) := rfl
  constructor
  · exact between_ends apart
  · have fourth : |d * d * d * d| = d * d ^ 3 := by
      rw [abs_of_pos (by positivity)]
      ring
    rw [force, Vec.length_mul, length, abs_div, fourth, ← mul_div_assoc,
      mul_div_mul_left _ _ pos.ne']
  · intro positive
    rw [force, Vec.mul_pointsAlong_iff (length ▸ pos)]
    positivity

/-- The real distance of two vertices. -/
noncomputable def gap (positions : Vector (Vec ℝ) n) (i j : Fin n) : ℝ :=
  (positions.get i - positions.get j).length

theorem length_repulsion {i j : Fin n} (apart : i ≠ j) :
    (repulsion c positions i j).force.length =
      |c.repulsion| / max (gap positions i j) (max c.minDistance Scalar.epsilon) ^ 3 := by
  rw [(repulsionLaw apart).magnitude, separation, (law_separation apart).distance, gap]

/-- What a vertex feels is the sum over the springs of links between different vertices and over the
repulsions of the pairs. -/
theorem get_total_all_eq_sum (links : List (Link n)) (v : Fin n) :
    (total (all c positions links)).get v =
      ((links.filter fun l => decide (l.head ≠ l.tail)).map fun l =>
        (spring c positions l).on v).sum +
        ∑ p : Fin n × Fin n with p.1 < p.2, (repulsion c positions p.1 p.2).on v := by
  have pairs : (pairsBelow n).toFinset = Finset.univ.filter fun p : Fin n × Fin n => p.1 < p.2 := by
    ext p
    simp [mem_pairsBelow]
  rw [get_total fun _ => first_ne_second_of_mem_all, all, List.map_append, List.sum_append,
    List.map_map, List.map_map, ← pairs, List.sum_toFinset _ nodup_pairsBelow]
  rfl

end Push

/-! ### The law -/

/-- The force law under a configuration. -/
structure ForceLaw (c : Config ℝ) : Prop where
  separation : ∀ {i j : Nat}, i ≠ j → ∀ p q, Separation.Law c.minDistance i j p q
  spring : ∀ {n : Nat} (positions : Vector (Vec ℝ) n) (l : Link n), l.head ≠ l.tail →
    Push.SpringLaw c positions l
  repulsion : ∀ {n : Nat} (positions : Vector (Vec ℝ) n) (i j : Fin n), i < j →
    Push.RepulsionLaw c positions i j
  /-- Up to the least distance all repulsions are equally strong. -/
  steady : ∀ {n n' : Nat} (positions : Vector (Vec ℝ) n) (positions' : Vector (Vec ℝ) n')
    {i j : Fin n} {i' j' : Fin n'}, i < j → i' < j' →
    Push.gap positions i j ≤ max c.minDistance Scalar.epsilon →
    Push.gap positions' i' j' ≤ max c.minDistance Scalar.epsilon →
    (Push.repulsion c positions' i' j').force.length =
      (Push.repulsion c positions i j).force.length
  /-- From the least distance on, a repulsion weakens as two vertices stand farther apart, if there
  is one at all. -/
  weakens : c.repulsion ≠ 0 →
    ∀ {n n' : Nat} (positions : Vector (Vec ℝ) n) (positions' : Vector (Vec ℝ) n')
      {i j : Fin n} {i' j' : Fin n'}, i < j → i' < j' →
      max c.minDistance Scalar.epsilon ≤ Push.gap positions i j →
      Push.gap positions i j < Push.gap positions' i' j' →
      (Push.repulsion c positions' i' j').force.length <
        (Push.repulsion c positions i j).force.length
  /-- A step adds to the damped velocity of a vertex the forces on it, and nothing else. -/
  felt : ∀ {n : Nat} (s : System ℝ n) (v : Fin n),
    (s.step c).2.velocities.get v = s.velocities.get v * c.damping +
      (((s.links.filter fun l => decide (l.head ≠ l.tail)).map fun l =>
          (Push.spring c s.positions l).on v).sum +
        ∑ p : Fin n × Fin n with p.1 < p.2, (Push.repulsion c s.positions p.1 p.2).on v)

/-- Every configuration obeys the force law. -/
theorem force_law (c : Config ℝ) : ForceLaw c where
  separation apart _ _ := Separation.law_of_ne apart
  spring _ _ apart := Push.springLaw apart
  repulsion _ _ _ less := Push.repulsionLaw less.ne
  steady {n n'} positions positions' {i j i' j'} less less' near near' := by
    rw [Push.length_repulsion less.ne, Push.length_repulsion less'.ne, max_eq_right near,
      max_eq_right near']
  weakens charged {n n'} positions positions' {i j i' j'} less less' far farther := by
    have least_pos : 0 < max c.minDistance Scalar.epsilon :=
      lt_max_of_lt_right Scalar.epsilon_real_pos
    have pos : 0 < Push.gap positions i j := least_pos.trans_le far
    rw [Push.length_repulsion less.ne, Push.length_repulsion less'.ne, max_eq_left far,
      max_eq_left (far.trans farther.le)]
    have cubes : Push.gap positions i j ^ 3 < Push.gap positions' i' j' ^ 3 :=
      pow_lt_pow_left₀ farther pos.le three_ne_zero
    exact div_lt_div_of_pos_left (abs_pos.mpr charged) (pow_pos pos 3) cubes
  felt s v := by
    have moved : (s.step c).2.velocities.get v = s.velocities.get v * c.damping +
        (Push.total (Push.all c s.positions s.links)).get v := Vector.getElem_zipWith _
    rw [moved, Push.get_total_all_eq_sum]

/-- One vertex at the origin and one at distance `d` from it. -/
noncomputable def Push.spread (d : ℝ) : Vector (Vec ℝ) 2 := #v[⟨0, 0⟩, ⟨d, 0⟩]

theorem Push.gap_spread {d : ℝ} (nonneg : 0 ≤ d) : gap (spread d) 0 1 = d := by
  have square : (0 - d) * (0 - d) + (0 - 0) * (0 - 0) = d * d := by ring
  exact (congrArg Real.sqrt square).trans (Real.sqrt_mul_self nonneg)

theorem force_law_spread :
    max Config.standard.minDistance Scalar.epsilon ≤ Push.gap (Push.spread 3) 0 1 ∧
      Push.gap (Push.spread 3) 0 1 < Push.gap (Push.spread 5) 0 1 ∧
      (Push.repulsion Config.standard (Push.spread 5) 0 1).force.length <
        (Push.repulsion Config.standard (Push.spread 3) 0 1).force.length := by
  have near : Push.gap (Push.spread 3) 0 1 = 3 := Push.gap_spread (by norm_num)
  have far : Push.gap (Push.spread 5) 0 1 = 5 := Push.gap_spread (by norm_num)
  have least : max Config.standard.minDistance Scalar.epsilon ≤ Push.gap (Push.spread 3) 0 1 := by
    rw [near]
    norm_num [Config.standard, Scalar.epsilon]
  have farther : Push.gap (Push.spread 3) 0 1 < Push.gap (Push.spread 5) 0 1 := by
    rw [near, far]
    norm_num
  have charged : (Config.standard : Config ℝ).repulsion ≠ 0 := by norm_num [Config.standard]
  exact ⟨least, farther, (force_law Config.standard).weakens charged (Push.spread 3)
    (Push.spread 5) (by decide) (by decide) least farther⟩

end SpringLayout
