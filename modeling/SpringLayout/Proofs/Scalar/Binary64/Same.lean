import Mathlib.Data.Prod.Lex
import SpringLayout.Proofs.Scalar.Binary64.Sign

/-!
Binary64 numbers that cannot be told apart by comparing.

`Scalar.Same` holds of scalars that are equal, and of any two NaNs. In binary64 such scalars are the
same to the bit, or zeros that differ in their sign (`Binary64.same_iff`). Sums, differences and
products do not make more of that sign than they were given (`Scalar.Same.add`, `.sub` and
`.mul_right`). Quotients do, since a zero divides into infinities of either sign; but scalars that
are the same and greater than zero are identical (`Scalar.Same.eq_of_pos`), so they divide alike.
-/

namespace SpringLayout

/-- The scalars are equal, or neither is a number. -/
def Scalar.Same {α : Type} [Scalar α] (a b : α) : Prop :=
  (a == b) = true ∨ isNaN a = true ∧ isNaN b = true

namespace Binary64

open Float.Model (UnpackedFloat)
open Float.Model.UnpackedFloat

/-! ### Values that are the same -/

/-- The values are the same but for the sign of a zero. -/
def SameValue (u v : UnpackedFloat) : Prop := u = v ∨ ∃ s t, u = .zero s ∧ v = .zero t

variable {u u' v v' : UnpackedFloat}

theorem SameValue.symm (same : SameValue u v) : SameValue v u := by
  rcases same with rfl | ⟨s, t, rfl, rfl⟩
  · exact .inl rfl
  · exact .inr ⟨t, s, rfl, rfl⟩

theorem sameValue_of_rank_eq (number : u ≠ .notANumber) (number' : v ≠ .notANumber)
    (equal : rank u = rank v) : SameValue u v := by
  rcases u with ⟨_ | _⟩ | _ | _ | ⟨_ | _, m, e, _⟩ <;>
    rcases v with ⟨_ | _⟩ | _ | _ | ⟨_ | _, m', e', _⟩ <;>
    simp_all [rank, SameValue]

theorem SameValue.rank_eq (same : SameValue u v) : rank u = rank v := by
  rcases same with rfl | ⟨s, t, rfl, rfl⟩
  · rfl
  · rfl

theorem SameValue.eq_notANumber_iff (same : SameValue u v) :
    u = .notANumber ↔ v = .notANumber := by
  rcases same with rfl | ⟨s, t, rfl, rfl⟩
  · rfl
  · exact iff_of_false UnpackedFloat.noConfusion UnpackedFloat.noConfusion

theorem SameValue.neg (same : SameValue u v) : SameValue u.neg v.neg := by
  rcases same with rfl | ⟨s, t, rfl, rfl⟩
  · exact .inl rfl
  · exact .inr ⟨-s, -t, rfl, rfl⟩

theorem SameValue.pack (same : SameValue u v) :
    SameValue (unpack .binary64 (pack .binary64 u)) (unpack .binary64 (pack .binary64 v)) := by
  rcases same with rfl | ⟨s, t, rfl, rfl⟩
  · exact .inl rfl
  · exact .inr ⟨s, t, unpack_packedZero, unpack_packedZero⟩

theorem exists_zero_add_zero (s t : Sign) :
    ∃ r, (UnpackedFloat.zero s).add .binary64 (.zero t) = .zero r := by
  rw [UnpackedFloat.add]
  split
  · exact ⟨_, rfl⟩
  · exact ⟨_, rfl⟩

/-- The sign of a zero shows in a sum of zeros only. -/
theorem SameValue.add (same : SameValue u u') (same' : SameValue v v') :
    SameValue (u.add .binary64 v) (u'.add .binary64 v') := by
  have zeros : ∀ s t s' t', SameValue ((UnpackedFloat.zero s).add .binary64 (.zero s'))
      ((UnpackedFloat.zero t).add .binary64 (.zero t')) := by
    intro s t s' t'
    obtain ⟨r, sum⟩ := exists_zero_add_zero s s'
    obtain ⟨r', sum'⟩ := exists_zero_add_zero t t'
    exact .inr ⟨r, r', sum, sum'⟩
  rcases same with rfl | ⟨s, t, rfl, rfl⟩
  · rcases same' with rfl | ⟨s', t', rfl, rfl⟩
    · exact .inl rfl
    · cases u with
      | zero r => exact zeros r r s' t'
      | _ => exact .inl rfl
  · rcases same' with rfl | ⟨s', t', rfl, rfl⟩
    · cases v with
      | zero r => exact zeros s t r r
      | _ => exact .inl rfl
    · exact zeros s t s' t'

theorem SameValue.mul_right (same : SameValue u u') (v : UnpackedFloat) :
    SameValue (u.mul .binary64 v) (u'.mul .binary64 v) := by
  rcases same with rfl | ⟨s, t, rfl, rfl⟩
  · exact .inl rfl
  · cases v with
    | notANumber => exact .inl rfl
    | infinity r => exact .inl rfl
    | zero r => exact .inr ⟨s * r, t * r, rfl, rfl⟩
    | finite r m e pos => exact .inr ⟨s * r, t * r, rfl, rfl⟩

/-! ### Numbers that are the same -/

variable {a a' b b' : Float}

/-- Numbers that are the same differ in the sign of a zero at most. -/
theorem same_iff : Scalar.Same a b ↔ SameValue (value a) (value b) := by
  rw [Scalar.Same, beq_iff, compare_eq_some_iff, isNaN_eq_true_iff, isNaN_eq_true_iff]
  constructor
  · rintro (⟨⟨number, number'⟩, equal⟩ | ⟨nan, nan'⟩)
    · exact sameValue_of_rank_eq number number' equal
    · exact .inl (nan.trans nan'.symm)
  · intro same
    by_cases nan : value a = .notANumber
    · exact .inr ⟨nan, same.eq_notANumber_iff.mp nan⟩
    · exact .inl ⟨⟨nan, mt same.eq_notANumber_iff.mpr nan⟩, same.rank_eq⟩

theorem same_of_le_of_le (less : a ≤ b) (more : b ≤ a) : Scalar.Same a b := by
  rw [le_iff_rank] at less more
  exact same_iff.mpr (sameValue_of_rank_eq less.1.1 less.1.2 (le_antisymm less.2 more.2))

end Binary64

namespace Scalar.Same

open Binary64

variable {a a' b b' : Float}

theorem refl (a : Float) : Same a a := same_iff.mpr (.inl rfl)

theorem symm (same : Same a b) : Same b a := same_iff.mpr (same_iff.mp same).symm

theorem add (same : Same a a') (same' : Same b b') : Same (a + b) (a' + b') := by
  rw [same_iff] at same same' ⊢
  exact (same.add same').pack

theorem sub (same : Same a a') (same' : Same b b') : Same (a - b) (a' - b') := by
  rw [same_iff] at same same' ⊢
  rw [value_sub, value_sub, sub_eq_add, sub_eq_add]
  exact (same.add same'.neg).pack

theorem mul_right (same : Same a a') (b : Float) : Same (a * b) (a' * b) := by
  rw [same_iff] at same ⊢
  exact (same.mul_right (value b)).pack

/-- A number greater than zero is the same as no other number. -/
theorem eq_of_pos (same : Same a b) (pos : ((0 : Nat) : Float) < a) : a = b := by
  rcases same_iff.mp same with equal | ⟨s, t, zero, -⟩
  · exact value_injective equal
  · rw [lt_iff, value_zero, zero] at pos
    cases pos

end Scalar.Same

end SpringLayout
