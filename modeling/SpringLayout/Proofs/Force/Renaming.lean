import Mathlib.Algebra.BigOperators.Sym
import SpringLayout.Proofs.Force.Law

/-!
Vertices under other names, over exact numbers.

A name enters the forces in three places: the vertices that a push acts on, the order of a pair, and
the direction that is made up for vertices that coincide. The first is renamed along
(`Push.on_rename`). The second does not show, since a repulsion has the same effect from either end
(`Push.on_repulsion_comm`) and every sum over pairs in order is one over unordered pairs
(`sum_pairs_rename`). The third is left out by asking that no two vertices coincide (`Push.Apart`).

So renamed vertices feel the same forces (`Push.get_total_all_rename`), and as many pushes are
guarded (`Push.countP_guarded_rename`).
-/

namespace SpringLayout

variable {n : Nat}

/-! ### Unordered pairs -/

/-- A sum over pairs in order is one over unordered pairs, which renaming only rearranges. -/
theorem sum_pairs_rename {M : Type} [AddCommMonoid M] (π : Equiv.Perm (Fin n))
    {f : Fin n → Fin n → M} (comm : ∀ i j, f i j = f j i) :
    ∑ p : Fin n × Fin n with p.1 < p.2, f (π p.1) (π p.2) =
      ∑ p : Fin n × Fin n with p.1 < p.2, f p.1 p.2 := by
  have unordered : ∀ g : Sym2 (Fin n) → M,
      ∑ p : Fin n × Fin n with p.1 < p.2, g s(p.1, p.2) =
        ∑ e : Sym2 (Fin n) with ¬ e.IsDiag, g e := by
    intro g
    have pairs : (Finset.univ.filter fun p : Fin n × Fin n => p.1 < p.2) =
        Finset.univ.offDiag.filter fun p => p.1 < p.2 := by
      ext p
      simpa using fun less : p.1 < p.2 => less.ne
    rw [pairs, ← Finset.sum_sym2_filter_not_isDiag, Finset.sym2_univ]
  let g : Sym2 (Fin n) → M := Sym2.lift ⟨f, comm⟩
  have renamed : ∑ e : Sym2 (Fin n) with ¬ e.IsDiag, g (e.map π) =
      ∑ e : Sym2 (Fin n) with ¬ e.IsDiag, g e := by
    refine Finset.sum_bijective (Sym2.map π) ?_ ?_ ?_
    · exact Finite.injective_iff_bijective.mp (Sym2.map.injective π.injective)
    · intro e
      simp [Sym2.isDiag_map π.injective]
    · intro e _
      rfl
  exact (unordered fun e => g (e.map π)).trans (renamed.trans (unordered g).symm)

/-! ### Names in separations and pushes -/

/-- Where two vertices do not coincide, their names do not matter. -/
theorem Separation.between_of_directed {m : ℝ} {i j i' j' : Nat} {p q : Vec ℝ}
    (directed : Scalar.epsilon < (p - q).length) : between m i j p q = between m i' j' p q := by
  simp only [between, if_pos directed]

/-- The link between the same vertices under their new names. -/
def Link.rename (π : Equiv.Perm (Fin n)) (l : Link n) : Link n := ⟨π l.head, π l.tail⟩

theorem Link.rename_loop_iff (π : Equiv.Perm (Fin n)) (l : Link n) :
    (l.rename π).head = (l.rename π).tail ↔ l.head = l.tail := π.apply_eq_iff_eq

namespace Push

/-- The push on the same vertices under their new names. -/
def rename {α : Type} (π : Equiv.Perm (Fin n)) (p : Push α n) : Push α n :=
  { p with first := π p.first, second := π p.second }

theorem on_rename (π : Equiv.Perm (Fin n)) (p : Push ℝ n) (v : Fin n) :
    (p.rename π).on (π v) = p.on v := by
  simp only [on, rename, π.apply_eq_iff_eq]

/-- No two vertices are as close as `2⁻⁵²`, so each has a direction from every other. -/
def Apart (positions : Vector (Vec ℝ) n) : Prop :=
  ∀ i j, i ≠ j → Scalar.epsilon < gap positions i j

variable (c : Config ℝ)

section Swap

variable (positions : Vector (Vec ℝ) n) (i j v : Fin n)

/-- Two vertices repel each other the same from either end. -/
theorem repulsion_swap {i j : Fin n} (apart : i ≠ j) :
    (repulsion c positions j i).force = -(repulsion c positions i j).force ∧
      (repulsion c positions j i).guarded = (repulsion c positions i j).guarded := by
  have mirrored := Separation.between_swap c.minDistance (Fin.val_ne_of_ne apart.symm)
    positions[j] positions[i]
  constructor
  · simp only [repulsion, mirrored.distance]
    exact Vec.eq_neg_of_opposite (mirrored.delta.mul _)
  · exact mirrored.guarded

theorem on_repulsion_comm :
    (repulsion c positions i j).on v = (repulsion c positions j i).on v := by
  rcases eq_or_ne i j with rfl | apart
  · rfl
  have here : (repulsion c positions i j).Between i j := between_ends apart
  have there : (repulsion c positions j i).Between j i := between_ends apart.symm
  have opposite := (repulsion_swap c positions apart).1
  rcases eq_or_ne v i with rfl | first
  · rw [here.on_first, there.on_second, opposite, neg_neg]
  · rcases eq_or_ne v j with rfl | second
    · rw [here.on_second, there.on_first, opposite]
    · rw [here.on_other v first second, there.on_other v second first]

theorem guarded_repulsion_comm :
    (repulsion c positions i j).guarded = (repulsion c positions j i).guarded := by
  rcases eq_or_ne i j with rfl | apart
  · rfl
  · exact (repulsion_swap c positions apart).2.symm

end Swap

/-! ### Renamed vertices

`positions'` has at vertex `π v` what `positions` has at `v`. -/

variable {π : Equiv.Perm (Fin n)} {positions positions' : Vector (Vec ℝ) n}
  (apart : Apart positions) (renamed : ∀ v, positions'.get (π v) = positions.get v)
include apart renamed

/-- The vertices see each other as before. -/
theorem separation_rename {i j : Fin n} (distinct : i ≠ j) :
    separation c positions' (π i) (π j) = separation c positions i j := by
  rw [separation, separation, renamed, renamed]
  exact Separation.between_of_directed (apart i j distinct)

theorem repulsion_rename {i j : Fin n} (distinct : i ≠ j) :
    repulsion c positions' (π i) (π j) = (repulsion c positions i j).rename π :=
  congrArg (fun s : Separation ℝ =>
    let d := s.distance
    (⟨π i, π j, s.delta * (c.repulsion / (d * d * d * d)), s.guarded⟩ : Push ℝ n))
    (separation_rename c apart renamed distinct)

theorem spring_rename {l : Link n} (distinct : l.head ≠ l.tail) :
    spring c positions' (l.rename π) = (spring c positions l).rename π :=
  congrArg (fun s : Separation ℝ =>
    let strength := c.springStiffness * (s.distance - c.restLength)
    (⟨π l.head, π l.tail, s.delta * (strength / s.distance), s.guarded⟩ : Push ℝ n))
    (separation_rename c apart renamed distinct.symm)

/-- What is added up over the pairs stays, if it is the same for a renamed push and from either
end. -/
theorem sum_repulsions_rename {M : Type} [AddCommMonoid M] (f f' : Push ℝ n → M)
    (same : ∀ p : Push ℝ n, f' (p.rename π) = f p)
    (comm : ∀ i j, f' (repulsion c positions' i j) = f' (repulsion c positions' j i)) :
    ∑ p : Fin n × Fin n with p.1 < p.2, f' (repulsion c positions' p.1 p.2) =
      ∑ p : Fin n × Fin n with p.1 < p.2, f (repulsion c positions p.1 p.2) := by
  rw [← sum_pairs_rename π comm]
  refine Finset.sum_congr rfl fun p mem => ?_
  have distinct : p.1 ≠ p.2 := (Finset.mem_filter.mp mem).2.ne
  rw [repulsion_rename c apart renamed distinct, same]

variable {links links' : List (Link n)} (relisted : links'.Perm (links.map (Link.rename π)))
include relisted

/-- A renamed vertex feels what it felt before, whatever the order of the links. -/
theorem get_total_all_rename (v : Fin n) :
    (total (all c positions' links')).get (π v) = (total (all c positions links)).get v := by
  have springs :
      ((links'.filter fun l => decide (l.head ≠ l.tail)).map fun l =>
          (spring c positions' l).on (π v)).sum =
        ((links.filter fun l => decide (l.head ≠ l.tail)).map fun l =>
          (spring c positions l).on v).sum := by
    rw [((relisted.filter _).map _).sum_eq, List.filter_map, List.map_map]
    simp only [Function.comp_def, Ne, Link.rename_loop_iff]
    congr 1
    refine List.map_congr_left fun l mem => ?_
    have distinct : l.head ≠ l.tail := by simpa using (List.mem_filter.mp mem).2
    rw [spring_rename c apart renamed distinct, on_rename]
  have repulsions :
      ∑ p : Fin n × Fin n with p.1 < p.2, (repulsion c positions' p.1 p.2).on (π v) =
        ∑ p : Fin n × Fin n with p.1 < p.2, (repulsion c positions p.1 p.2).on v :=
    sum_repulsions_rename c apart renamed (fun p => p.on v) (fun p => p.on (π v))
      (fun p => on_rename π p v) fun i j => on_repulsion_comm c positions' i j (π v)
  rw [get_total_all_eq_sum, get_total_all_eq_sum, springs, repulsions]

/-- As many pushes are guarded as before. -/
theorem countP_guarded_rename :
    (all c positions' links').countP (fun p => p.guarded) =
      (all c positions links).countP (fun p => p.guarded) := by
  have springs :
      links'.countP (fun l => l.head ≠ l.tail ∧ (spring c positions' l).guarded = true) =
        links.countP (fun l => l.head ≠ l.tail ∧ (spring c positions l).guarded = true) := by
    rw [relisted.countP_eq, List.countP_map]
    refine List.countP_congr fun l _ => ?_
    simp only [Function.comp_apply, Ne, Link.rename_loop_iff, decide_eq_true_eq]
    refine and_congr_right fun distinct => ?_
    rw [spring_rename c apart renamed distinct]
    rfl
  let one : Push ℝ n → Nat := fun p => if p.guarded = true then 1 else 0
  have repulsions := sum_repulsions_rename c apart renamed one one (fun _ => rfl) fun i j =>
    congrArg (fun guarded : Bool => if guarded = true then 1 else 0)
      (guarded_repulsion_comm c positions' i j)
  rw [countP_guarded_all, countP_guarded_all, springs]
  simp only [← Finset.filter_filter, Finset.card_filter]
  exact congrArg _ repulsions

end Push

end SpringLayout
