import Mathlib.Data.Finset.Card
import Mathlib.Data.Fintype.Prod
import Mathlib.Data.List.FinRange
import SpringLayout.Force.Push

/-!
Scattered forces and gathered forces.

`Push.total` scatters: it goes through the pushes once and deposits each at both of its vertices.
`Push.gather` is the force on a single vertex, found from that vertex alone. Sums of scalars depend
on their order, so the two agree only because every vertex meets its pushes in the same order
either way:

* `Push.get_foldl_deposit`: after any number of deposits, the force on a vertex is the fold of
  what it feels of each;
* `filter_pairsBelow`: the pairs of a vertex come in the order of the other vertex;
* `Push.get_total_all`: scattered and gathered forces are the same scalars.

No law of arithmetic is used.
-/

namespace SpringLayout

/-! ### What a vertex feels -/

namespace Push

variable {α : Type} [PolarScalar α] {n : Nat}

/-- The force on `v` once a push is added. -/
def feel (v : Fin n) (force : Vec α) (p : Push α n) : Vec α :=
  if p.first = v then force + p.force
  else if p.second = v then force - p.force
  else force

/-- One deposit changes the force on a vertex by what that vertex feels of it. -/
theorem get_deposit (forces : Vector (Vec α) n) {p : Push α n}
    (distinct : p.first ≠ p.second) (v : Fin n) :
    (deposit forces p).get v = feel v (forces.get v) p := by
  change (deposit forces p)[v] = feel v forces[v] p
  have apart : p.first.val ≠ p.second.val := fun h => distinct (Fin.ext h)
  unfold deposit feel
  by_cases first : p.first = v
  · subst first
    simp [Vector.getElem_set, apart.symm]
  · have first' : p.first.val ≠ v.val := fun h => first (Fin.ext h)
    by_cases second : p.second = v
    · subst second
      simp [apart, first]
    · have second' : p.second.val ≠ v.val := fun h => second (Fin.ext h)
      simp [Vector.getElem_set, first, second, first', second']

theorem get_foldl_deposit (pushes : List (Push α n)) (forces : Vector (Vec α) n)
    (distinct : ∀ p ∈ pushes, p.first ≠ p.second) (v : Fin n) :
    (pushes.foldl deposit forces).get v = pushes.foldl (feel v) (forces.get v) := by
  induction pushes generalizing forces with
  | nil => rfl
  | cons p rest ih =>
      rw [List.foldl_cons, List.foldl_cons,
        ih _ fun q mem => distinct q (List.mem_cons_of_mem _ mem),
        get_deposit forces (distinct p List.mem_cons_self)]

end Push

/-! ### The pairs at one vertex -/

section Pairs

variable {n : Nat}

/-- An ascending list is what lies below a member, the member, and what lies above it. -/
theorem eq_below_append_above {l : List (Fin n)} (ascending : l.Pairwise (· < ·)) {v : Fin n}
    (mem : v ∈ l) :
    l = (l.filter fun i => i < v) ++ v :: l.filter fun i => v < i := by
  induction l with
  | nil => cases mem
  | cons a rest ih =>
      obtain ⟨least, ascending⟩ := List.pairwise_cons.mp ascending
      rcases List.mem_cons.mp mem with rfl | mem
      · have below : rest.filter (fun i => i < v) = [] := by
          rw [List.filter_eq_nil_iff]
          intro i hi
          simpa using (least i hi).le
        have above : rest.filter (fun i => v < i) = rest := by
          rw [List.filter_eq_self]
          intro i hi
          simpa using least i hi
        simp [below, above]
      · have hav : a < v := least v mem
        have := ih ascending mem
        rw [List.filter_cons_of_pos (by simpa using hav),
          List.filter_cons_of_neg (by simpa using hav.le), List.cons_append, ← this]

/-- The vertices before `v`, in order. -/
def below (v : Fin n) : List (Fin n) := (List.finRange n).filter fun j => j < v

/-- The vertices after `v`, in order. -/
def above (v : Fin n) : List (Fin n) := (List.finRange n).filter fun j => v < j

@[simp] theorem mem_below {v j : Fin n} : j ∈ below v ↔ j < v := by simp [below]

@[simp] theorem mem_above {v j : Fin n} : j ∈ above v ↔ v < j := by simp [above]

theorem finRange_eq_below_append_above (v : Fin n) :
    List.finRange n = below v ++ v :: above v :=
  eq_below_append_above (List.pairwise_lt_finRange n) (List.mem_finRange v)

theorem pairsBelow_eq_flatMap :
    pairsBelow n = (List.finRange n).flatMap fun i => (above i).map fun j => (i, j) := rfl

theorem mem_pairsBelow {p : Fin n × Fin n} : p ∈ pairsBelow n ↔ p.1 < p.2 := by
  simp only [pairsBelow, List.mem_flatMap, List.mem_map, List.mem_filter, List.mem_finRange,
    true_and, decide_eq_true_eq]
  constructor
  · rintro ⟨i, j, less, rfl⟩
    exact less
  · intro less
    exact ⟨p.1, p.2, less, rfl⟩

theorem nodup_pairsBelow : (pairsBelow n).Nodup := by
  rw [pairsBelow, List.nodup_flatMap]
  constructor
  · intro i _
    exact ((List.nodup_finRange n).filter _).map fun a b h => (Prod.mk.inj h).2
  · refine (List.nodup_finRange n).imp fun {i i'} apart => ?_
    intro p left right
    obtain ⟨j, _, rfl⟩ := List.mem_map.mp left
    obtain ⟨j', _, same⟩ := List.mem_map.mp right
    exact apart (Prod.mk.inj same).1.symm

/-- Counting along the list of pairs counts the pairs. -/
theorem countP_pairsBelow (q : Fin n × Fin n → Bool) :
    (pairsBelow n).countP q =
      (Finset.univ.filter fun p : Fin n × Fin n => p.1 < p.2 ∧ q p = true).card := by
  rw [List.countP_eq_length_filter, ← List.toFinset_card_of_nodup (nodup_pairsBelow.filter q)]
  congr 1
  ext p
  simp [mem_pairsBelow]

/-- The pairs of row `i` that `v` belongs to. -/
theorem filter_row (v i : Fin n) :
    (((above i).map fun j => (i, j)).filter fun p => p.1 = v ∨ p.2 = v) =
      if i < v then [(i, v)] else if i = v then (above v).map fun j => (v, j) else [] := by
  rw [List.filter_map]
  rcases lt_trichotomy i v with less | rfl | more
  · have only : (above i).filter (fun j => i = v ∨ j = v) = [v] := by
      have at_most : ∀ j ∈ above i, decide (i = v ∨ j = v) = decide (j = v) := by
        intro j _
        simp [less.ne]
      have nodup : (above i).Nodup := (List.nodup_finRange n).filter _
      rw [List.filter_congr at_most, List.filter_eq,
        List.count_eq_one_of_mem nodup (mem_above.mpr less)]
      rfl
    rw [if_pos less]
    exact congrArg (List.map _) only
  · simp [Function.comp_def]
  · have none : (above i).filter (fun j => i = v ∨ j = v) = [] := by
      rw [List.filter_eq_nil_iff]
      intro j mem
      have : v < j := more.trans (mem_above.mp mem)
      simp [more.ne', this.ne']
    rw [if_neg more.not_gt, if_neg more.ne']
    exact congrArg (List.map _) none

/-- The pairs of `v` in order: first those with the vertices before it, then those with the
vertices after it. -/
theorem filter_pairsBelow (v : Fin n) :
    ((pairsBelow n).filter fun p => p.1 = v ∨ p.2 = v) =
      ((below v).map fun j => (j, v)) ++ (above v).map fun j => (v, j) := by
  simp only [pairsBelow_eq_flatMap, List.filter_flatMap, filter_row]
  have before : ∀ i ∈ below v, (if i < v then [(i, v)]
      else if i = v then (above v).map fun j => (v, j) else []) = [(i, v)] := by
    intro i mem
    rw [if_pos (mem_below.mp mem)]
  have after : ∀ i ∈ above v, (if i < v then [(i, v)]
      else if i = v then (above v).map fun j => (v, j) else []) = [] := by
    intro i mem
    have more := mem_above.mp mem
    rw [if_neg more.not_gt, if_neg more.ne']
  rw [finRange_eq_below_append_above v, List.flatMap_append, List.flatMap_cons,
    List.flatMap_congr before, List.flatMap_eq_nil_iff.mpr after, ← List.map_eq_flatMap]
  simp

end Pairs

/-! ### The gathered force -/

namespace Push

variable {α : Type} [PolarScalar α] {n : Nat}

/-- The force on `v` after one more link. A link from a vertex to itself exerts nothing. -/
def feelLink (c : Config α) (positions : Vector (Vec α) n) (v : Fin n) (force : Vec α)
    (l : Link n) : Vec α :=
  if l.head = l.tail then force
  else if l.head = v then force + (spring c positions l).force
  else if l.tail = v then force - (spring c positions l).force
  else force

/-- The force on `v` after the repulsion of one more vertex. -/
def feelVertex (c : Config α) (positions : Vector (Vec α) n) (v : Fin n) (force : Vec α)
    (j : Fin n) : Vec α :=
  if j < v then force - (repulsion c positions j v).force
  else if v < j then force + (repulsion c positions v j).force
  else force

/-- The force that `v` gathers on its own: from zero, of the links in their order, and then of all
vertices in ascending order. -/
def gather (c : Config α) (positions : Vector (Vec α) n) (links : List (Link n)) (v : Fin n) :
    Vec α :=
  (List.finRange n).foldl (feelVertex c positions v)
    (links.foldl (feelLink c positions v) Vec.zero)

theorem first_ne_second_of_mem_all {c : Config α} {positions : Vector (Vec α) n}
    {links : List (Link n)} {p : Push α n} (mem : p ∈ all c positions links) :
    p.first ≠ p.second := by
  rcases List.mem_append.mp mem with edge | pair
  · obtain ⟨l, kept, rfl⟩ := List.mem_map.mp edge
    simpa using (List.mem_filter.mp kept).2
  · obtain ⟨ij, listed, rfl⟩ := List.mem_map.mp pair
    exact (mem_pairsBelow.mp listed).ne

theorem foldl_feel_springs (c : Config α) (positions : Vector (Vec α) n) (links : List (Link n))
    (v : Fin n) (force : Vec α) :
    ((links.filter fun l => l.head ≠ l.tail).map (spring c positions)).foldl (feel v)
        force =
      links.foldl (feelLink c positions v) force := by
  rw [List.foldl_map, List.foldl_filter]
  refine List.foldl_ext _ _ _ fun force l _ => ?_
  by_cases loop : l.head = l.tail
  · simp [feelLink, loop]
  · rw [feelLink, if_neg loop, if_pos (by simpa using loop)]
    rfl

theorem foldl_feel_repulsions (c : Config α) (positions : Vector (Vec α) n) (v : Fin n)
    (force : Vec α) :
    ((pairsBelow n).map fun (i, j) => repulsion c positions i j).foldl (feel v) force =
      (List.finRange n).foldl (feelVertex c positions v) force := by
  have unfelt : ∀ (force : Vec α) (p : Fin n × Fin n),
      feel v force (repulsion c positions p.1 p.2) =
        if decide (p.1 = v ∨ p.2 = v) then feel v force (repulsion c positions p.1 p.2)
        else force := by
    intro force p
    by_cases touches : p.1 = v ∨ p.2 = v
    · simp [touches]
    · obtain ⟨first, second⟩ := not_or.mp touches
      simp [feel, first, second]
  have before : ∀ (force : Vec α), ∀ j ∈ below v,
      feel v force (repulsion c positions j v) = feelVertex c positions v force j := by
    intro force j mem
    have less := mem_below.mp mem
    simp [feel, feelVertex, less, less.ne]
  have after : ∀ (force : Vec α), ∀ j ∈ above v,
      feel v force (repulsion c positions v j) = feelVertex c positions v force j := by
    intro force j mem
    have more := mem_above.mp mem
    simp [feel, feelVertex, more, more.not_gt]
  have itself : ∀ force : Vec α, feelVertex c positions v force v = force := by
    intro force
    simp [feelVertex]
  calc ((pairsBelow n).map fun (i, j) => repulsion c positions i j).foldl (feel v) force
      = ((pairsBelow n).filter fun p => p.1 = v ∨ p.2 = v).foldl
          (fun force p => feel v force (repulsion c positions p.1 p.2)) force := by
        rw [List.foldl_map, List.foldl_filter]
        exact List.foldl_ext _ _ _ fun force p _ => unfelt force p
    _ = (above v).foldl (feelVertex c positions v)
          ((below v).foldl (feelVertex c positions v) force) := by
        rw [filter_pairsBelow, List.foldl_append, List.foldl_map, List.foldl_map,
          List.foldl_ext _ _ _ before, List.foldl_ext _ _ _ after]
    _ = (List.finRange n).foldl (feelVertex c positions v) force := by
        rw [finRange_eq_below_append_above v, List.foldl_append, List.foldl_cons, itself]

/-- The scattered forces are the gathered ones, at every vertex and without any law of
arithmetic. -/
theorem get_total_all (c : Config α) (positions : Vector (Vec α) n) (links : List (Link n))
    (v : Fin n) : (total (all c positions links)).get v = gather c positions links v := by
  rw [total, get_foldl_deposit _ _ (fun _ => first_ne_second_of_mem_all), all,
    List.foldl_append, foldl_feel_springs, foldl_feel_repulsions, gather]
  congr 2
  exact Vector.getElem_replicate _

/-- The guarded pushes are the guarded springs of links between different vertices and the guarded
pairs of vertices. -/
theorem countP_guarded_all (c : Config α) (positions : Vector (Vec α) n) (links : List (Link n)) :
    (all c positions links).countP (fun p => p.guarded) =
      links.countP (fun l => l.head ≠ l.tail ∧ (spring c positions l).guarded = true) +
        (Finset.univ.filter fun p : Fin n × Fin n =>
          p.1 < p.2 ∧ (repulsion c positions p.1 p.2).guarded = true).card := by
  rw [all, List.countP_append, List.countP_map, List.countP_map, List.countP_filter,
    ← countP_pairsBelow fun p => (repulsion c positions p.1 p.2).guarded]
  congr 1
  refine List.countP_congr fun l _ => ?_
  simp [and_comm]

end Push

end SpringLayout
