import SpringLayout.Run.StopFlag

/-!
Stop flags as they are issued and raised.

`StopFlags.isRaised_raise_iff` and `StopFlags.isRaised_issue` say what each operation does to every
flag. `StopFlags.Extends` compares two registries of which the first issued some flags more before
all that both of them issued; it is kept when both go on alike.
-/

namespace SpringLayout

/-- The handle when `n` flags more are issued before all others. -/
def StopFlag.shift (n : Nat) (flag : StopFlag) : StopFlag := ⟨flag.number + n⟩

namespace StopFlags

/-- The flag has been issued. -/
def Issued (f : StopFlags) (flag : StopFlag) : Prop := flag.number < f.raised.size

section Operations

variable {f : StopFlags} {flag other : StopFlag}

/-- Raising a flag raises that one, if it was issued, and no other. -/
theorem isRaised_raise_iff :
    (f.raise other).isRaised flag = true ↔
      f.isRaised flag = true ∨ flag = other ∧ f.Issued other := by
  obtain ⟨i⟩ := flag
  obtain ⟨j⟩ := other
  simp only [isRaised, raise, Issued, Array.getD_eq_getD_getElem?, Array.getElem?_setIfInBounds,
    StopFlag.mk.injEq]
  by_cases same : j = i
  · subst same
    by_cases issued : j < f.raised.size
    · simp [issued]
    · simp [issued]
  · simp [same, Ne.symm same]

theorem isRaised_raise (raised : f.isRaised flag = true) (other : StopFlag) :
    (f.raise other).isRaised flag = true :=
  isRaised_raise_iff.mpr (Or.inl raised)

@[simp] theorem size_raise : (f.raise other).raised.size = f.raised.size :=
  Array.size_setIfInBounds

@[simp] theorem issued_raise_iff : (f.raise other).Issued flag ↔ f.Issued flag := by
  rw [Issued, Issued, size_raise]

/-- Only a flag that was issued and is not raised yet can be raised. -/
theorem raise_eq_self (raised : f.Issued flag → f.isRaised flag = true) : f.raise flag = f := by
  obtain ⟨bits⟩ := f
  refine congrArg StopFlags.mk (Array.ext_getElem? fun i => ?_)
  rw [Array.getElem?_setIfInBounds]
  by_cases same : flag.number = i
  · subst same
    by_cases issued : flag.number < bits.size
    · have isSet := raised issued
      rw [isRaised, Array.getD_eq_getD_getElem?, Array.getElem?_eq_getElem issued] at isSet
      rw [if_pos rfl, if_pos issued, Array.getElem?_eq_getElem issued]
      exact congrArg some isSet.symm
    · rw [if_pos rfl, if_neg issued]
      exact (Array.getElem?_eq_none (Nat.le_of_not_lt issued)).symm
  · rw [if_neg same]

/-- A new flag is lowered, and so is a flag that was never issued. -/
@[simp] theorem isRaised_issue : f.issue.2.isRaised flag = f.isRaised flag := by
  simp only [isRaised, issue, Array.getD_eq_getD_getElem?, Array.getElem?_push]
  by_cases new : flag.number = f.raised.size
  · simp [new]
  · simp [new]

theorem isRaised_of_not_issued (unissued : ¬ f.Issued flag) : f.isRaised flag = false := by
  rw [isRaised, Array.getD_eq_getD_getElem?,
    Array.getElem?_eq_none (Nat.le_of_not_lt unissued)]
  rfl

theorem issued_issue_iff : f.issue.2.Issued flag ↔ f.Issued flag ∨ flag = f.issue.1 := by
  obtain ⟨i⟩ := flag
  simp only [Issued, issue, Array.size_push, StopFlag.mk.injEq]
  omega

@[simp] theorem not_issued_issue : ¬ f.Issued f.issue.1 := Nat.lt_irrefl _

end Operations

/-! ### Registries that go on alike -/

/-- The first registry issued `n` flags before all that the second issued, and both agree about
the others. -/
structure Extends (n : Nat) (f g : StopFlags) : Prop where
  size : f.raised.size = g.raised.size + n
  isRaised : ∀ flag : StopFlag, f.isRaised (flag.shift n) = g.isRaised flag

namespace Extends

variable {n : Nat} {f g : StopFlags}

/-- Every registry extends the one that has not issued anything. -/
theorem empty (f : StopFlags) : f.Extends f.raised.size StopFlags.empty where
  size := (Nat.zero_add _).symm
  isRaised flag := by
    have unissued : ¬ f.Issued (flag.shift f.raised.size) :=
      Nat.not_lt.mpr (Nat.le_add_left _ _)
    rw [isRaised_of_not_issued unissued]
    rfl

protected theorem refl (f : StopFlags) : f.Extends 0 f := ⟨rfl, fun _ => rfl⟩

theorem issued_iff (extend : f.Extends n g) (flag : StopFlag) :
    f.Issued (flag.shift n) ↔ g.Issued flag := by
  rw [Issued, Issued, extend.size]
  exact Nat.add_lt_add_iff_right

/-- Registries that differ by no flag are the same. -/
theorem eq_of_zero (extend : f.Extends 0 g) : f = g := by
  obtain ⟨bits⟩ := f
  obtain ⟨bits'⟩ := g
  refine congrArg StopFlags.mk (Array.ext extend.size fun i bound bound' => ?_)
  have agree : bits.getD i false = bits'.getD i false := extend.isRaised ⟨i⟩
  rwa [Array.getD_eq_getD_getElem?, Array.getD_eq_getD_getElem?,
    Array.getElem?_eq_getElem bound, Array.getElem?_eq_getElem bound'] at agree

protected theorem raise (extend : f.Extends n g) (flag : StopFlag) :
    (f.raise (flag.shift n)).Extends n (g.raise flag) where
  size := by
    rw [size_raise, size_raise]
    exact extend.size
  isRaised other := by
    have shifted : other.shift n = flag.shift n ↔ other = flag := by
      obtain ⟨i⟩ := other
      obtain ⟨j⟩ := flag
      simp [StopFlag.shift]
    rw [Bool.eq_iff_iff, isRaised_raise_iff, isRaised_raise_iff, extend.isRaised,
      extend.issued_iff, shifted]

/-- The flags issued before do not matter. -/
theorem raise_before (extend : f.Extends n g) {flag : StopFlag} (before : flag.number < n) :
    (f.raise flag).Extends n g where
  size := by
    rw [size_raise]
    exact extend.size
  isRaised other := by
    have apart : other.shift n ≠ flag := by
      rintro rfl
      exact Nat.not_lt.mpr (Nat.le_add_left n other.number) before
    rw [Bool.eq_iff_iff, isRaised_raise_iff, extend.isRaised]
    simp [apart]

theorem issue_fst (extend : f.Extends n g) : f.issue.1 = g.issue.1.shift n :=
  congrArg StopFlag.mk extend.size

protected theorem issue (extend : f.Extends n g) : f.issue.2.Extends n g.issue.2 where
  size := by
    rw [StopFlags.issue, StopFlags.issue, Array.size_push, Array.size_push, extend.size]
    omega
  isRaised flag := by rw [isRaised_issue, isRaised_issue, extend.isRaised]

end Extends

end StopFlags

end SpringLayout
