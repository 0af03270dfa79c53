import SpringLayout.Proofs.EntryTree
import SpringLayout.Proofs.Scalar.Binary64.Exact

/-!
A list is a lawful tree of entries, in binary64.

It is lawful whatever places are admitted (`EntryList.lawful`). A search goes through all entries
and keeps the nearer one; where all distances are numbers, no entry is nearer than the one that is
left (`EntryList.isNearest_foldl`).
-/

namespace SpringLayout

/-! ### The nearest entry -/

section Nearest

variable {α : Type} [Scalar α] [OrderedScalar α] {p : Vec α}

namespace EntryList

theorem isNearest_nearer {a b : HitEntry α} (left : Scalar.isNaN (a.distSq p) = false)
    (right : Scalar.isNaN (b.distSq p) = false) : IsNearest p [a, b] (nearer p a b) := by
  unfold nearer
  split
  · next less =>
      refine ⟨by simp, fun f listed => ?_⟩
      rcases List.mem_pair.mp listed with rfl | rfl
      · exact OrderedScalar.le_of_lt less
      · exact OrderedScalar.le_refl right
  · next more =>
      refine ⟨by simp, fun f listed => ?_⟩
      rcases List.mem_pair.mp listed with rfl | rfl
      · exact OrderedScalar.le_refl left
      · exact OrderedScalar.le_of_not_lt left right more

theorem isNearest_foldl {first : HitEntry α} {rest : List (HitEntry α)}
    (numbers : ∀ e ∈ first :: rest, Scalar.isNaN (e.distSq p) = false) :
    IsNearest p (first :: rest) (rest.foldl (nearer p) first) := by
  induction rest generalizing first with
  | nil =>
      refine ⟨List.mem_singleton_self _, fun e listed => ?_⟩
      cases List.mem_singleton.mp listed
      exact OrderedScalar.le_refl (numbers _ listed)
  | cons second rest ih =>
      rw [List.forall_mem_cons, List.forall_mem_cons] at numbers
      obtain ⟨left, right, others⟩ := numbers
      -- The nearer of the first two stands for both in what is left of the search.
      have pair := isNearest_nearer left right
      have number : Scalar.isNaN ((nearer p first second).distSq p) = false := by
        rcases List.mem_pair.mp pair.listed with same | same
        · rwa [same]
        · rwa [same]
      have found := ih (List.forall_mem_cons.mpr ⟨number, others⟩)
      rw [List.foldl_cons]
      have stands := found.least _ List.mem_cons_self
      have least_first := OrderedScalar.le_trans stands (pair.least first (by simp))
      have least_second := OrderedScalar.le_trans stands (pair.least second (by simp))
      refine ⟨?_, ?_⟩
      · rcases List.mem_cons.mp found.listed with same | listed
        · rw [same]
          exact List.mem_append_left rest pair.listed
        · exact List.mem_cons_of_mem _ (List.mem_cons_of_mem _ listed)
      · rw [List.forall_mem_cons, List.forall_mem_cons]
        exact ⟨least_first, least_second,
          fun e listed => found.least e (List.mem_cons_of_mem _ listed)⟩

end EntryList

end Nearest

/-! ### The laws -/

namespace EntryList

section Removing

variable {α : Type} [Scalar α] {e f : HitEntry α} {t rest : EntryList α}

theorem of_remove_eq_some (removed : EntryTree.remove e t = (some f, rest)) :
    (f == e) = true ∧ t.entries.Perm (f :: rest.entries) := by
  obtain ⟨found, rfl⟩ := Prod.ext_iff.mp removed
  obtain ⟨equal, before, after, split, earlier⟩ := List.find?_eq_some_iff_append.mp found
  have unequal : ∀ g ∈ before, ¬ (g == e) = true := by simpa using earlier
  have erased : t.entries.eraseP (· == e) = before ++ after := by
    rw [split, List.eraseP_append_right _ unequal, List.eraseP_cons_of_pos (p := (· == e)) equal]
  refine ⟨equal, ?_⟩
  change t.entries.Perm (f :: t.entries.eraseP (· == e))
  rw [erased, split]
  exact List.perm_middle

theorem of_remove_eq_none (removed : EntryTree.remove e t = (none, rest)) :
    (∀ g ∈ t.entries, ¬ (g == e) = true) ∧ rest.entries.Perm t.entries := by
  obtain ⟨found, rfl⟩ := Prod.ext_iff.mp removed
  have unequal := List.find?_eq_none.mp found
  refine ⟨unequal, ?_⟩
  change (t.entries.eraseP (· == e)).Perm t.entries
  rw [List.eraseP_of_forall_not unequal]

theorem sparing (Admits : Vec α → Prop) : EntryTree.Sparing (EntryList α) Admits where
  insert _ _ := .refl _
  remove_some _ := of_remove_eq_some
  remove_none _ removed := (of_remove_eq_none removed).2

end Removing

theorem lawful (Admits : Vec Float → Prop) : EntryTree.Lawful (EntryList Float) Admits where
  toSparing := sparing Admits
  empty := rfl
  load _ := .refl _
  absent _ removed := (of_remove_eq_none removed).1
  nearest_some {p e t} all pointed found := by
    obtain ⟨entries⟩ := t
    cases entries with
    | nil => cases found
    | cons first rest =>
        cases found
        have nearest := isNearest_foldl fun e listed => HitEntry.isNaN_distSq (all e listed) pointed
        exact ⟨nearest.listed, fun f listed => Binary64.not_lt_of_le (nearest.least f listed)⟩
  nearest_none {p t} _ _ found := by
    obtain ⟨entries⟩ := t
    cases entries with
    | nil => rfl
    | cons first rest => cases found
  size _ := rfl

end EntryList

end SpringLayout
