import SpringLayout.Proofs.Force.Gather
import SpringLayout.Proofs.Scalar.Sign

/-!
Which end of a link is its head does not show.

A spring pushes its head and pushes against its tail. Turned round, it finds the displacement from
the other end, which is opposite in every branch of the guard (`Separation.between_swap`), and its
two ends change roles: what was added is now subtracted. The two cancel to the last bit of every
coordinate, a zero's sign included, because the forces that they are added to began with zero
(`Push.feelLink_reversed`). So turning any links round leaves all forces as they are
(`Push.total_all_turned`) and as many pushes guarded.
-/

namespace SpringLayout

/-! ### Opposite vectors -/

namespace Vec

section Signs

variable {α : Type} [Scalar α]

/-- Both coordinates of the vectors are opposite. -/
structure Opposite (a b : Vec α) : Prop where
  x : Scalar.Opposite a.x b.x
  y : Scalar.Opposite a.y b.y

/-- Both coordinates can be sums that began with zero. -/
structure IsSum (a : Vec α) : Prop where
  x : Scalar.IsSum a.x
  y : Scalar.IsSum a.y

variable [SignSymmetric α] {a b : Vec α}

theorem isSum_zero : IsSum (zero : Vec α) := ⟨SignSymmetric.isSum_zero, SignSymmetric.isSum_zero⟩

theorem IsSum.add (sum : a.IsSum) (b : Vec α) : (a + b).IsSum :=
  ⟨SignSymmetric.isSum_add b.x sum.x, SignSymmetric.isSum_add b.y sum.y⟩

theorem IsSum.sub (sum : a.IsSum) (b : Vec α) : (a - b).IsSum :=
  ⟨sum.x.sub b.x, sum.y.sub b.y⟩

namespace Opposite

theorem symm (opposite : Opposite a b) : Opposite b a := ⟨opposite.x.symm, opposite.y.symm⟩

theorem neg_right (a : Vec α) : Opposite a (-a) := by
  constructor
  · exact .inl (SignSymmetric.neg_neg a.x).symm
  · exact .inl (SignSymmetric.neg_neg a.y).symm

theorem sub_swap (p q : Vec α) : Opposite (p - q) (q - p) :=
  ⟨.sub_swap p.x q.x, .sub_swap p.y q.y⟩

theorem mul (opposite : Opposite a b) (s : α) : Opposite (a * s) (b * s) :=
  ⟨opposite.x.mul s, opposite.y.mul s⟩

theorem lengthSq_eq (opposite : Opposite a b) : a.lengthSq = b.lengthSq := by
  rw [lengthSq, lengthSq, opposite.x.mul_self, opposite.y.mul_self]

theorem add_eq_sub (opposite : Opposite a b) {sum : Vec α} (isSum : sum.IsSum) :
    sum + a = sum - b := by
  ext
  · exact opposite.x.add_eq_sub isSum.x
  · exact opposite.y.add_eq_sub isSum.y

end Opposite

end Signs

theorem Opposite.length_eq {α : Type} [PolarScalar α] [SignSymmetric α] {a b : Vec α}
    (opposite : Opposite a b) : a.length = b.length :=
  congrArg PolarScalar.sqrt opposite.lengthSq_eq

end Vec

/-! ### Separations from either end -/

theorem pairNumber_comm (i j : UInt64) : pairNumber i j = pairNumber j i := by
  unfold pairNumber
  by_cases less : i < j
  · rw [if_pos less, if_neg (UInt64.lt_asymm less)]
  · by_cases more : j < i
    · rw [if_neg less, if_pos more]
    · obtain rfl : i = j := UInt64.le_antisymm (UInt64.not_lt.mp more) (UInt64.not_lt.mp less)
      rfl

namespace Separation

variable {α : Type} [PolarScalar α]

/-- What two vertices see of each other: opposite displacements, and all else the same. -/
structure Mirrored (s t : Separation α) : Prop where
  delta : s.delta.Opposite t.delta
  distance : s.distance = t.distance
  guarded : s.guarded = t.guarded

variable [SignSymmetric α] {i j : Nat}

theorem tieBreak_swap (apart : i ≠ j) :
    (tieBreak i j : Vec α).Opposite (tieBreak j i) := by
  unfold tieBreak
  rw [pairNumber_comm j.toUInt64 i.toUInt64]
  rcases Nat.lt_or_gt_of_ne apart with less | more
  · rw [if_pos less, if_neg (Nat.lt_asymm less)]
    exact .neg_right _
  · rw [if_neg (Nat.lt_asymm more), if_pos more]
    exact (Vec.Opposite.neg_right _).symm

/-- Whichever branch of the guard is taken, it is taken from either end, and to opposite effect. -/
theorem between_swap (minDistance : α) (apart : i ≠ j) (p q : Vec α) :
    Mirrored (between minDistance i j p q) (between minDistance j i q p) := by
  have opposite : (p - q).Opposite (q - p) := .sub_swap p q
  have distance := opposite.length_eq
  simp only [between, ← distance]
  by_cases far : least minDistance ≤ (p - q).length
  · rw [if_pos far, if_pos far]
    exact ⟨opposite, rfl, rfl⟩
  · rw [if_neg far, if_neg far]
    refine ⟨Vec.Opposite.mul ?_ _, rfl, rfl⟩
    by_cases directed : Scalar.epsilon < (p - q).length
    · rw [if_pos directed, if_pos directed]
      exact opposite.mul _
    · rw [if_neg directed, if_neg directed]
      exact tieBreak_swap apart

end Separation

/-! ### Links turned round -/

namespace Link

variable {n : Nat}

/-- The link with head and tail exchanged. -/
def reversed (l : Link n) : Link n := ⟨l.tail, l.head⟩

/-- The same link, either way round. -/
def Turned (l l' : Link n) : Prop := l' = l ∨ l' = l.reversed

end Link

namespace Push

variable {α : Type} [PolarScalar α] [SignSymmetric α] {n : Nat} (c : Config α)
  (positions : Vector (Vec α) n)

theorem spring_reversed {l : Link n} (apart : l.head ≠ l.tail) :
    (spring c positions l.reversed).force.Opposite (spring c positions l).force ∧
      (spring c positions l.reversed).guarded = (spring c positions l).guarded := by
  have mirrored := Separation.between_swap c.minDistance (Fin.val_ne_of_ne apart)
    positions[l.head] positions[l.tail]
  constructor
  · simp only [spring, Link.reversed, mirrored.distance]
    exact mirrored.delta.mul _
  · exact mirrored.guarded

theorem isSum_feelLink {force : Vec α} (sum : force.IsSum) (v : Fin n) (l : Link n) :
    (feelLink c positions v force l).IsSum := by
  unfold feelLink
  split
  · exact sum
  · split
    · exact sum.add _
    · split
      · exact sum.sub _
      · exact sum

/-- Every vertex feels the same of a link turned round. -/
theorem feelLink_reversed {force : Vec α} (sum : force.IsSum) (v : Fin n) (l : Link n) :
    feelLink c positions v force l.reversed = feelLink c positions v force l := by
  rw [feelLink, feelLink]
  by_cases loop : l.head = l.tail
  · have loop' : l.reversed.head = l.reversed.tail := loop.symm
    rw [if_pos loop, if_pos loop']
  · have apart : ¬ l.reversed.head = l.reversed.tail := Ne.symm loop
    have opposite := (spring_reversed c positions loop).1
    rw [if_neg loop, if_neg apart]
    by_cases head : l.head = v
    · have tail' : l.reversed.tail = v := head
      have head' : ¬ l.reversed.head = v := fun tail => loop (head.trans tail.symm)
      rw [if_neg head', if_pos tail', if_pos head]
      exact (opposite.symm.add_eq_sub sum).symm
    · have tail' : ¬ l.reversed.tail = v := head
      rw [if_neg head, if_neg tail']
      by_cases tail : l.tail = v
      · have head' : l.reversed.head = v := tail
        rw [if_pos head', if_pos tail]
        exact opposite.add_eq_sub sum
      · have head' : ¬ l.reversed.head = v := tail
        rw [if_neg head', if_neg tail]

variable {links links' : List (Link n)}

theorem foldl_feelLink_turned (turned : List.Forall₂ Link.Turned links links') (v : Fin n)
    {force : Vec α} (sum : force.IsSum) :
    links'.foldl (feelLink c positions v) force = links.foldl (feelLink c positions v) force := by
  induction turned generalizing force with
  | nil => rfl
  | @cons l l' rest rest' first _ ih =>
      have same : feelLink c positions v force l' = feelLink c positions v force l := by
        rcases first with rfl | rfl
        · rfl
        · exact feelLink_reversed c positions sum v l
      rw [List.foldl_cons, List.foldl_cons, same, ih (isSum_feelLink c positions sum v l)]

theorem total_all_turned (turned : List.Forall₂ Link.Turned links links') :
    total (all c positions links') = total (all c positions links) := by
  refine Vector.ext fun i inside => ?_
  have gathered : gather c positions links' ⟨i, inside⟩ = gather c positions links ⟨i, inside⟩ := by
    unfold gather
    rw [foldl_feelLink_turned c positions turned _ Vec.isSum_zero]
  have scattered := get_total_all c positions links ⟨i, inside⟩
  have scattered' := get_total_all c positions links' ⟨i, inside⟩
  rw [gathered, ← scattered] at scattered'
  exact scattered'

theorem countP_springs_turned (turned : List.Forall₂ Link.Turned links links') :
    links'.countP (fun l => l.head ≠ l.tail ∧ (spring c positions l).guarded = true) =
      links.countP (fun l => l.head ≠ l.tail ∧ (spring c positions l).guarded = true) := by
  have same : ∀ l : Link n,
      (l.reversed.head ≠ l.reversed.tail ∧ (spring c positions l.reversed).guarded = true) ↔
        (l.head ≠ l.tail ∧ (spring c positions l).guarded = true) := by
    intro l
    refine (and_congr_left' ne_comm).trans (and_congr_right fun apart => ?_)
    rw [(spring_reversed c positions apart).2]
  induction turned with
  | nil => rfl
  | @cons l l' rest rest' first _ ih =>
      rw [List.countP_cons, List.countP_cons, ih]
      rcases first with rfl | rfl
      · rfl
      · simp only [same l]

theorem countP_guarded_turned (turned : List.Forall₂ Link.Turned links links') :
    (all c positions links').countP (fun p => p.guarded) =
      (all c positions links).countP (fun p => p.guarded) := by
  rw [countP_guarded_all, countP_guarded_all, countP_springs_turned c positions turned]

end Push

end SpringLayout
