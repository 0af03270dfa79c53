import SpringLayout.Proofs.Force.PairNumber
import SpringLayout.Proofs.Scalar.Binary64.Exact
import SpringLayout.Proofs.Simulation.Valid

/-!
No step divides by zero.

The least distance is at least `2⁻⁵²` whatever is configured, a NaN included, and every separation
is as long as that (`Separation.least_le_distance`). So its fourth power is at least `2⁻²⁰⁸`, which
binary64 still holds.

That nothing else is divided by is said by exchanging the division for another one.
`Binary64.dividing` is binary64 with any function in place of its quotients, and what is computed
with it is the same as long as the two agree on the divisors that are meant to be the only ones
(`Simulation.step_dividing`).
-/

namespace SpringLayout

/-! ### The least distance -/

namespace Binary64

theorem exact_epsilon : exact Scalar.epsilon = 2 ^ (-52 : ℤ) := by decide +kernel

theorem epsilon_pos : ((0 : Nat) : Float) < Scalar.epsilon := by decide +kernel

end Binary64

namespace Separation

open Binary64 (AtLeast epsilon_pos exact_epsilon two_zpow_pos)

theorem isNaN_epsilon : Scalar.isNaN (Scalar.epsilon : Float) = false :=
  Binary64.isNaN_of_lt epsilon_pos

theorem least_of_isNaN {m : Float} (nan : Scalar.isNaN m = true) : least m = Scalar.epsilon := by
  rw [least, Scalar.greater, if_pos nan]

theorem least_of_number {m : Float} (number : Scalar.isNaN m = false) :
    least m = if m < Scalar.epsilon then Scalar.epsilon else m := by
  rw [least, Scalar.greater, number]
  rfl

/-- Whatever is asked for, the least distance is not below `2⁻⁵²`. -/
theorem epsilon_le_least (m : Float) : Scalar.epsilon ≤ least m := by
  cases number : Scalar.isNaN m with
  | true =>
      rw [least_of_isNaN number]
      exact OrderedScalar.le_refl isNaN_epsilon
  | false =>
      rw [least_of_number number]
      by_cases small : m < Scalar.epsilon
      · rw [if_pos small]
        exact OrderedScalar.le_refl isNaN_epsilon
      · rw [if_neg small]
        exact OrderedScalar.le_of_not_lt isNaN_epsilon number small

theorem isNaN_least (m : Float) : Scalar.isNaN (least m) = false :=
  Binary64.isNaN_of_lt (Binary64.lt_of_lt_of_le epsilon_pos (epsilon_le_least m))

/-- No separation is shorter than the least distance, wherever the vertices are. -/
theorem least_le_distance (m : Float) (i j : Nat) (p q : Vec Float) :
    least m ≤ (between m i j p q).distance := by
  rw [between]
  by_cases far : least m ≤ (p - q).length
  · rw [if_pos far]
    exact far
  · rw [if_neg far]
    exact OrderedScalar.le_refl (isNaN_least m)

theorem epsilon_le_distance (m : Float) (i j : Nat) (p q : Vec Float) :
    Scalar.epsilon ≤ (between m i j p q).distance :=
  OrderedScalar.le_trans (epsilon_le_least m) (least_le_distance m i j p q)

theorem distance_pos (m : Float) (i j : Nat) (p q : Vec Float) :
    ((0 : Nat) : Float) < (between m i j p q).distance :=
  Binary64.lt_of_lt_of_le epsilon_pos (epsilon_le_distance m i j p q)

/-- The fourth power of a distance does not vanish though it is rounded three times. -/
theorem fourth_power_pos (m : Float) (i j : Nat) (p q : Vec Float) :
    let d := (between m i j p q).distance
    ((0 : Nat) : Float) < d * d * d * d := by
  have one : AtLeast (2 ^ (-52 : ℤ)) (between m i j p q).distance :=
    exact_epsilon ▸ AtLeast.of_le rfl (epsilon_le_distance m i j p q)
  have two := one.mul one (by norm_num)
  have three := two.mul one (by norm_num)
  have four := three.mul one (by norm_num)
  exact four.pos (two_zpow_pos _)

end Separation

/-! ### Another division -/

/-- Binary64 with another function in place of its quotients. -/
@[reducible] def Binary64.dividing (div : Float → Float → Float) : PolarScalar Float :=
  { (inferInstance : PolarScalar Float) with div := div }

section Dividing

open Binary64 (dividing)

variable {div : Float → Float → Float}

section Guard

variable (agrees : ∀ a b, Scalar.epsilon < b → div a b = a / b)
include agrees

theorem epsilon_dividing : @Scalar.epsilon Float (dividing div).toScalar = Scalar.epsilon := by
  have divisor : (Scalar.epsilon : Float) < ((4503599627370496 : Nat) : Float) := by
    decide +kernel
  exact agrees _ _ divisor

theorem goldenAngle_dividing :
    @Scalar.goldenAngle Float (dividing div).toScalar = Scalar.goldenAngle := by
  have divisor : (Scalar.epsilon : Float) < ((1000000000000000 : Nat) : Float) := by
    decide +kernel
  exact agrees _ _ divisor

theorem tieBreak_dividing (i j : Nat) :
    @Separation.tieBreak Float (dividing div) i j = Separation.tieBreak i j := by
  unfold Separation.tieBreak
  rw [goldenAngle_dividing agrees]
  rfl

theorem least_dividing (m : Float) :
    @Separation.least Float (dividing div) m = Separation.least m := by
  unfold Separation.least
  rw [epsilon_dividing agrees]
  rfl

/-- The guard divides by distances above `2⁻⁵²` and by nothing else. -/
theorem between_dividing (m : Float) (i j : Nat) (p q : Vec Float) :
    @Separation.between Float (dividing div) m i j p q = Separation.between m i j p q := by
  unfold Separation.between
  rw [least_dividing agrees, epsilon_dividing agrees, tieBreak_dividing agrees]
  by_cases far : Separation.least m ≤ (p - q).length
  · rw [if_pos far]
    exact if_pos far
  · have direction :
        (if Scalar.epsilon < (p - q).length
          then (p - q) * div ((1 : Nat) : Float) (p - q).length else Separation.tieBreak i j) =
        if Scalar.epsilon < (p - q).length
          then (p - q) * (((1 : Nat) : Float) / (p - q).length) else Separation.tieBreak i j := by
      by_cases directed : Scalar.epsilon < (p - q).length
      · rw [if_pos directed, if_pos directed, agrees _ _ directed]
      · rw [if_neg directed, if_neg directed]
    rw [if_neg far]
    refine (if_neg far).trans ?_
    exact congrArg
      (fun d : Vec Float => Separation.mk (d * Separation.least m) (Separation.least m) true)
      direction

end Guard

section Steps

variable (agrees : ∀ a b, ((0 : Nat) : Float) < b → div a b = a / b)
include agrees

theorem agrees_of_epsilon_lt : ∀ a b, Scalar.epsilon < b → div a b = a / b := by
  intro a b less
  refine agrees a b (Binary64.lt_of_lt_of_le Binary64.epsilon_pos ?_)
  exact OrderedScalar.le_of_lt less

variable {n : Nat} (c : Config Float) (positions : Vector (Vec Float) n)

theorem spring_dividing (l : Link n) :
    @Push.spring Float (dividing div) n c positions l = Push.spring c positions l := by
  unfold Push.spring
  rw [between_dividing (agrees_of_epsilon_lt agrees)]
  have divisor := Separation.distance_pos c.minDistance l.tail l.head positions[l.tail]
    positions[l.head]
  generalize Separation.between c.minDistance l.tail l.head positions[l.tail] positions[l.head] = s
    at divisor
  have quotient := agrees (c.springStiffness * (s.distance - c.restLength)) _ divisor
  exact congrArg (fun f => Push.mk l.head l.tail (s.delta * f) s.guarded) quotient

theorem repulsion_dividing (i j : Fin n) :
    @Push.repulsion Float (dividing div) n c positions i j = Push.repulsion c positions i j := by
  unfold Push.repulsion
  rw [between_dividing (agrees_of_epsilon_lt agrees)]
  have divisor := Separation.fourth_power_pos c.minDistance i j positions[i] positions[j]
  generalize Separation.between c.minDistance i j positions[i] positions[j] = s at divisor
  exact congrArg (fun f => Push.mk i j (s.delta * f) s.guarded) (agrees c.repulsion _ divisor)

theorem all_dividing (links : List (Link n)) :
    @Push.all Float (dividing div) n c positions links = Push.all c positions links := by
  unfold Push.all
  rw [funext (spring_dividing agrees c positions)]
  simp only [repulsion_dividing agrees c positions]

theorem System.step_dividing (s : System Float n) :
    @System.step Float (dividing div) n c s = s.step c := by
  unfold System.step
  rw [all_dividing agrees]
  rfl

/-- A step divides by positive numbers and by nothing else. -/
theorem Simulation.step_dividing (s : Simulation Float) :
    @Simulation.step Float (dividing div) c s = s.step c := by
  unfold Simulation.step
  cases s.system? with
  | error e => rfl
  | ok system =>
    dsimp only
    rw [System.step_dividing agrees]

end Steps

end Dividing

/-! ### What a step divides by -/

/-- Every division of a step, and every pair of vertices that it looks at, is harmless. -/
structure Simulation.DividesSafely (c : Config Float) (s : Simulation Float) : Prop where
  /-- The least distance is the greater of `c.minDistance` and `2⁻⁵²`; a NaN counts as the
  latter. -/
  least_of_isNaN : Scalar.isNaN c.minDistance = true →
    Separation.least c.minDistance = Scalar.epsilon
  least_of_number : Scalar.isNaN c.minDistance = false →
    Separation.least c.minDistance =
      if c.minDistance < Scalar.epsilon then Scalar.epsilon else c.minDistance
  /-- Wherever two points are, they are reported no closer than that. -/
  least_le_distance : ∀ i j (p q : Vec Float),
    Separation.least c.minDistance ≤ (Separation.between c.minDistance i j p q).distance
  distance_pos : ∀ i j (p q : Vec Float),
    let d := (Separation.between c.minDistance i j p q).distance
    Scalar.isNaN d = false ∧ ((0 : Nat) : Float) < d
  fourth_power_pos : ∀ i j (p q : Vec Float),
    let d := (Separation.between c.minDistance i j p q).distance
    Scalar.isNaN (d * d * d * d) = false ∧ ((0 : Nat) : Float) < d * d * d * d
  /-- The guard is the same for every division that does right above `2⁻⁵²`. -/
  guard_divides : ∀ div : Float → Float → Float,
    (∀ a b, Scalar.epsilon < b → div a b = a / b) → ∀ i j (p q : Vec Float),
      @Separation.between Float (Binary64.dividing div) c.minDistance i j p q =
        Separation.between c.minDistance i j p q
  /-- The step is the same for every division that does right by positive numbers. -/
  step_divides : ∀ div : Float → Float → Float,
    (∀ a b, ((0 : Nat) : Float) < b → div a b = a / b) →
      @Simulation.step Float (Binary64.dividing div) c s = s.step c
  /-- All pushes are between two different vertices. -/
  apart : ∀ p ∈ Push.all c s.positions.toVector s.links,
    (∃ l ∈ s.links, l.head ≠ l.tail ∧ p = Push.spring c s.positions.toVector l) ∨
      ∃ i j, i < j ∧ p = Push.repulsion c s.positions.toVector i j
  /-- Of two different vertices the greater has one before it, from which pairs are numbered. -/
  numbered : s.positions.size ≤ 2 ^ 64 → ∀ i j : Fin s.positions.size, i ≠ j →
    let hi := (max i j).val.toUInt64
    let lo := (min i j).val.toUInt64
    pairNumber i.val.toUInt64 j.val.toUInt64 = hi * (hi - 1) / 2 + lo ∧ 1 ≤ hi

namespace Push

variable {α : Type} [PolarScalar α] {n : Nat} (c : Config α) (positions : Vector (Vec α) n)

theorem eq_spring_or_repulsion_of_mem_all {links : List (Link n)} {p : Push α n}
    (mem : p ∈ all c positions links) :
    (∃ l ∈ links, l.head ≠ l.tail ∧ p = spring c positions l) ∨
      ∃ i j, i < j ∧ p = repulsion c positions i j := by
  rcases List.mem_append.mp mem with edge | pair
  · obtain ⟨l, kept, rfl⟩ := List.mem_map.mp edge
    obtain ⟨listed, apart⟩ := List.mem_filter.mp kept
    exact .inl ⟨l, listed, of_decide_eq_true apart, rfl⟩
  · obtain ⟨⟨i, j⟩, listed, rfl⟩ := List.mem_map.mp pair
    exact .inr ⟨i, j, mem_pairsBelow.mp listed, rfl⟩

end Push

/-- Whatever the configuration and the state, a step divides by positive numbers only. -/
theorem Simulation.divides_safely (c : Config Float) (s : Simulation Float) :
    s.DividesSafely c where
  least_of_isNaN := Separation.least_of_isNaN
  least_of_number := Separation.least_of_number
  least_le_distance := Separation.least_le_distance c.minDistance
  distance_pos i j p q :=
    have pos := Separation.distance_pos c.minDistance i j p q
    ⟨Binary64.isNaN_of_lt pos, pos⟩
  fourth_power_pos i j p q :=
    have pos := Separation.fourth_power_pos c.minDistance i j p q
    ⟨Binary64.isNaN_of_lt pos, pos⟩
  guard_divides _ agrees := between_dividing agrees c.minDistance
  step_divides _ agrees := Simulation.step_dividing agrees c s
  apart _ mem := Push.eq_spring_or_repulsion_of_mem_all c s.positions.toVector mem
  numbered := by
    intro size i j apart
    rcases lt_or_gt_of_ne apart with less | more
    · rw [max_eq_right less.le, min_eq_left less.le]
      exact pairNumber_of_lt less (j.isLt.trans_le size)
    · rw [max_eq_left more.le, min_eq_right more.le, pairNumber_comm]
      exact pairNumber_of_lt more (i.isLt.trans_le size)

end SpringLayout
