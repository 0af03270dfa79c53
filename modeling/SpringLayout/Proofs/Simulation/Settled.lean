import SpringLayout.Proofs.Scalar.Binary64.Exact
import SpringLayout.Proofs.Simulation.Gathering

/-!
Settled steps and forces that are no numbers.

A step compares the square of each force with the square of the least force. The square of a force
with a NaN is a NaN and compares with nothing, so such a force is never little. The square of an
infinite force is infinite, which is more than the square of the least force unless that is infinite
too; and it is, for a least force of `10²⁰⁰` as for an infinite one (`Simulation.settled_flung`).
Main statement: what a settled step says of the forces (`Simulation.forces_of_settled`).
-/

namespace SpringLayout

/-! ### Sums of squares -/

namespace Binary64

open Float.Model (UnpackedFloat)
open Float.Model.UnpackedFloat

variable {a b : Float}

/-- The value is no number below infinity. -/
def Immense (u : UnpackedFloat) : Prop := u = .notANumber ∨ u = .infinity .positive

theorem immense_unpack_pack {u : UnpackedFloat} (immense : Immense u) :
    Immense (unpack .binary64 (pack .binary64 u)) := by
  rcases immense with rfl | rfl
  · exact .inl unpack_packedNaN
  · exact .inr (unpack_packedInfinity .positive)

/-- A square is a NaN or has the positive sign. -/
theorem square_positive (a : Float) :
    value (a * a) = .notANumber ∨ sign? (value (a * a)) = some .positive := by
  by_cases nan : value a = .notANumber
  · left
    rw [value_mul, nan]
    exact unpack_packedNaN
  · right
    rw [value_mul, sign?_unpack_pack]
    exact sign?_mul_self nan

theorem immense_square (infinite : Scalar.isFinite a = false) : Immense (value (a * a)) := by
  rw [isFinite_eq] at infinite
  rw [value_mul]
  apply immense_unpack_pack
  cases taken : value a with
  | notANumber => exact .inl rfl
  | infinity s => cases s with
    | _ => exact .inr rfl
  | _ =>
      rw [taken] at infinite
      cases infinite

/-- What is added to something immense makes it no less, unless it is negative. -/
theorem immense_add {u v : UnpackedFloat} (immense : Immense u)
    (positive : v = .notANumber ∨ sign? v = some .positive) :
    Immense (u.add .binary64 v) ∧ Immense (v.add .binary64 u) := by
  rcases immense with rfl | rfl
  · cases v with
    | _ => exact ⟨.inl rfl, .inl rfl⟩
  · rcases positive with rfl | positive
    · exact ⟨.inl rfl, .inl rfl⟩
    · cases v with
      | notANumber => exact ⟨.inl rfl, .inl rfl⟩
      | infinity s =>
          cases positive
          exact ⟨.inr rfl, .inr rfl⟩
      | zero s => exact ⟨.inr rfl, .inr rfl⟩
      | finite s m e pos => exact ⟨.inr rfl, .inr rfl⟩

theorem immense_squares (infinite : Scalar.isFinite a = false ∨ Scalar.isFinite b = false) :
    Immense (value (a * a + b * b)) := by
  rw [value_add]
  apply immense_unpack_pack
  rcases infinite with infinite | infinite
  · exact (immense_add (immense_square infinite) (square_positive b)).1
  · exact (immense_add (immense_square infinite) (square_positive a)).2

variable {t : Float}

/-- The squares of two scalars add up to no less than a finite number only if both are finite. -/
theorem isFinite_of_squares_le (le : a * a + b * b ≤ t) (finite : Scalar.isFinite t = true) :
    Scalar.isFinite a = true ∧ Scalar.isFinite b = true := by
  obtain ⟨⟨number, -⟩, ranks⟩ := le_iff_rank.mp le
  have small : ¬ Immense (value (a * a + b * b)) := by
    rintro (nan | infinite)
    · exact number nan
    · rw [infinite] at ranks
      exact absurd ranks (not_le.mpr (rank_of_isFinite finite).2)
  constructor
  · by_contra infinite
    exact small (immense_squares (.inl (Bool.not_eq_true _ ▸ infinite)))
  · by_contra infinite
    exact small (immense_squares (.inr (Bool.not_eq_true _ ▸ infinite)))

/-- The squares of two scalars add up to no more than anything only if both are numbers. -/
theorem isNaN_of_squares_le (le : a * a + b * b ≤ t) :
    Scalar.isNaN a = false ∧ Scalar.isNaN b = false := by
  obtain ⟨⟨number, -⟩, -⟩ := le_iff_rank.mp le
  have square : ∀ {a : Float}, value a = .notANumber → value (a * a) = .notANumber := by
    intro a nan
    rw [value_mul, nan]
    exact unpack_packedNaN
  rw [isNaN_eq_false_iff, isNaN_eq_false_iff]
  constructor
  · intro nan
    apply number
    rw [value_add, square nan]
    exact unpack_packedNaN
  · intro nan
    apply number
    rw [value_add, square nan, add_notANumber]
    exact unpack_packedNaN

end Binary64

/-! ### What a settled step says -/

namespace Simulation

/-- Every vertex of a settled step feels a force that is a number. It is finite as well, unless the
square of the least force is infinite. -/
theorem forces_of_settled (c : Config Float) {s : Simulation Float} (valid : s.Valid) :
    ∃ outcome after, s.step c = (.ok outcome, after) ∧
      (outcome.settled = true → ∀ v,
        (Scalar.isNaN (s.gathered c v).x = false ∧ Scalar.isNaN (s.gathered c v).y = false) ∧
          (Scalar.isFinite c.minForceSq = true → (s.gathered c v).isFinite = true)) := by
  obtain ⟨-, outcome, after, stepped, gathers⟩ := step_gathers c valid
  refine ⟨outcome, after, stepped, fun settled v => ?_⟩
  have little := gathers.settled.mp settled v
  refine ⟨Binary64.isNaN_of_squares_le little, fun finite => ?_⟩
  obtain ⟨x, y⟩ := Binary64.isFinite_of_squares_le little finite
  rw [Vec.isFinite, x, y]
  rfl

/-- Two vertices that hardly feel each other. -/
def distant : Simulation Float := atRest #[⟨0, 0⟩, ⟨1000, 0⟩] []

theorem forces_of_settled_distant :
    ((distant.system (by decide)).step Config.standard).1.settled = true ∧
      ∃ outcome after, distant.step Config.standard = (.ok outcome, after) ∧
        (outcome.settled = true → ∀ v,
          (Scalar.isNaN (distant.gathered Config.standard v).x = false ∧
              Scalar.isNaN (distant.gathered Config.standard v).y = false) ∧
            (Scalar.isFinite (Config.standard : Config Float).minForceSq = true →
              (distant.gathered Config.standard v).isFinite = true)) :=
  ⟨by decide +kernel, forces_of_settled Config.standard (by decide)⟩

/-- A least force whose square is past all numbers. -/
def boundless : Config Float :=
  { Config.standard with minForce := 1e200, repulsion := 1e308, minDistance := 0.25 }

/-- Two vertices that are thrown apart with infinite forces. -/
def flung : Simulation Float := atRest #[⟨0, 0⟩, ⟨0.5, 0.5⟩] []

/-- Their step is settled all the same. -/
theorem settled_flung :
    flung.Valid ∧ ∃ outcome after, flung.step boundless = (.ok outcome, after) ∧
      outcome.settled = true ∧ ∀ v, (flung.gathered boundless v).isFinite = false :=
  ⟨by decide, _, _, step_of_valid boundless (by decide), by decide +kernel, by decide +kernel⟩

end Simulation

end SpringLayout
