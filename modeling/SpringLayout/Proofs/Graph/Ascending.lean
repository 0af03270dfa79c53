import SpringLayout.Graph.Adjacency

/-!
What is sorted and stripped of repetitions.

Equal members of a sorted list stand together, so erasing runs leaves each of them once. A list that
ascends strictly is known by its members (`ascending_eq_of_mem_iff`): neither the order in which
they came nor how often matters.
-/

namespace SpringLayout

section Runs

variable {ι : Type} [DecidableEq ι]

omit [DecidableEq ι] in
theorem eraseRepsBy_loop (same : ι → ι → Bool) (a : ι) (l kept : List ι) :
    List.eraseRepsBy.loop same a l kept =
      kept.reverse ++ List.eraseRepsBy.loop same a l [] := by
  induction l generalizing a kept with
  | nil => simp [List.eraseRepsBy.loop]
  | cons b rest ih =>
      unfold List.eraseRepsBy.loop
      split
      · exact ih a kept
      · rw [ih b (a :: kept), ih b [a], List.reverse_cons, List.reverse_singleton,
          List.append_assoc]

/-- A member is dropped for an equal one after it. -/
theorem eraseReps_cons_cons (a b : ι) (l : List ι) :
    (a :: b :: l).eraseReps =
      if a = b then (b :: l).eraseReps else a :: (b :: l).eraseReps := by
  change List.eraseRepsBy.loop _ a (b :: l) [] =
    if a = b then List.eraseRepsBy.loop _ b l [] else a :: List.eraseRepsBy.loop _ b l []
  conv => lhs; unfold List.eraseRepsBy.loop
  by_cases same : a = b
  · subst same
    rw [beq_self_eq_true, if_pos rfl]
  · rw [beq_eq_false_iff_ne.mpr same, if_neg same]
    exact eraseRepsBy_loop _ b l [a]

theorem mem_eraseReps_iff {a : ι} {l : List ι} :
    a ∈ l.eraseReps ↔ a ∈ l := by
  induction l with
  | nil => rfl
  | cons b rest ih =>
      cases rest with
      | nil => rfl
      | cons c rest =>
          rw [eraseReps_cons_cons]
          split
          · next same =>
              subst same
              rw [ih, List.mem_cons (l := b :: rest), or_iff_right_of_imp]
              rintro rfl
              exact List.mem_cons_self
          · rw [List.mem_cons, ih, ← List.mem_cons]

end Runs

section Ascending

variable {ι : Type} [DecidableEq ι] {index : ι → Nat}

/-- Where no two members have the same index, what was sorted ascends strictly once runs are
erased. -/
theorem pairwise_eraseReps (injective : ∀ a b, index a = index b → a = b) {l : List ι}
    (sorted : l.Pairwise (index · ≤ index ·)) :
    l.eraseReps.Pairwise (index · < index ·) := by
  induction l with
  | nil => exact .nil
  | cons a rest ih =>
      cases rest with
      | nil => exact List.pairwise_singleton _ a
      | cons b rest =>
          obtain ⟨least, sorted'⟩ := List.pairwise_cons.mp sorted
          rw [eraseReps_cons_cons]
          split
          · exact ih sorted'
          · next apart =>
              refine List.pairwise_cons.mpr ⟨?_, ih sorted'⟩
              intro c mem
              have less : index a < index b :=
                Nat.lt_of_le_of_ne (least b List.mem_cons_self) (mt (injective a b) apart)
              rcases List.mem_cons.mp (mem_eraseReps_iff.mp mem) with rfl | later
              · exact less
              · exact Nat.lt_of_lt_of_le less ((List.pairwise_cons.mp sorted').1 c later)

theorem mem_ascending_iff {a : ι} {ids : List ι} : a ∈ ascending index ids ↔ a ∈ ids := by
  rw [ascending, mem_eraseReps_iff, List.mem_mergeSort]

theorem pairwise_ascending (injective : ∀ a b, index a = index b → a = b) (ids : List ι) :
    (ascending index ids).Pairwise (index · < index ·) := by
  apply pairwise_eraseReps injective
  have sorted : (ids.mergeSort fun a b => decide (index a ≤ index b)).Pairwise
      fun a b => decide (index a ≤ index b) = true := by
    apply List.pairwise_mergeSort
    · simpa using fun a b c => Nat.le_trans
    · simpa using fun a b => Nat.le_total _ _
  simpa using sorted

omit [DecidableEq ι] in
theorem nodup_of_pairwise {l : List ι} (ascends : l.Pairwise (index · < index ·)) : l.Nodup :=
  ascends.imp fun less same => Nat.ne_of_lt less (congrArg index same)

/-- What ascends and has the same members is the same. -/
theorem ascending_eq_of_mem_iff (injective : ∀ a b, index a = index b → a = b) {ids l : List ι}
    (ascends : l.Pairwise (index · < index ·)) (members : ∀ a, a ∈ ids ↔ a ∈ l) :
    ascending index ids = l := by
  have ascends' := pairwise_ascending injective ids
  have perm : (ascending index ids).Perm l := by
    rw [List.perm_ext_iff_of_nodup (nodup_of_pairwise ascends') (nodup_of_pairwise ascends)]
    intro a
    rw [mem_ascending_iff, members]
  exact perm.eq_of_pairwise
    (fun a b _ _ less greater => absurd less (Nat.lt_asymm greater)) ascends' ascends

end Ascending

end SpringLayout
