import Mathlib.Algebra.Order.Ring.Abs
import Mathlib.Algebra.Order.Ring.Cast
import SpringLayout.Proofs.Scalar.Binary64.Exact
import SpringLayout.Proofs.Scalar.Sign

/-!
Binary64 treats both signs alike.

Each law of `SignSymmetric` is shown of values taken apart first (`value_neg_mul`, `value_sub_swap`,
`add_eq_negative_zero`), and then carried over what packing does to them, which treats both signs
alike (`unpack_pack_neg`) and makes no zero of anything else (`eq_zero_of_unpack_pack`). That a sum
is never rounded to a negative zero is where the places of numbers come in: none of them has a place
below the last one (`normalize_ne_negative_zero`).

Main statement: the instance of `SignSymmetric`.
-/

namespace SpringLayout.Binary64

open Float.Model (UnpackedFloat Format totalExponent)
open Float.Model.UnpackedFloat

/-! ### Values and their negatives -/

theorem sign_neg_neg (s : Sign) : - -s = s := by
  cases s with
  | _ => rfl

theorem sign_neg_mul (s t : Sign) : -s * t = -(s * t) := by
  cases s with
  | _ => cases t with
    | _ => rfl

theorem value_neg_neg (u : UnpackedFloat) : u.neg.neg = u := by
  cases u with
  | notANumber => rfl
  | infinity s => exact congrArg _ (sign_neg_neg s)
  | zero s => exact congrArg _ (sign_neg_neg s)
  | finite s m e pos => simp only [UnpackedFloat.neg, sign_neg_neg]

theorem unpack_packComponents_neg (s : Sign) (e : BitVec 11) (m : BitVec 52) :
    unpack .binary64 (packComponents .binary64 (-s) e m) =
      (unpack .binary64 (packComponents .binary64 s e m)).neg := by
  simp only [unpack, unpackMantissa_packComponents, unpackExponent_packComponents,
    unpackSign_packComponents, Sign.ofBitVec_toBitVec]
  split
  · split
    · rfl
    · rfl
  · split
    · split
      · rfl
      · rfl
    · rfl

/-- Rounding into range treats both signs alike. -/
theorem unpack_pack_neg (u : UnpackedFloat) :
    unpack .binary64 (pack .binary64 u.neg) = (unpack .binary64 (pack .binary64 u)).neg := by
  cases u with
  | notANumber => rfl
  | infinity s =>
      rw [UnpackedFloat.neg, pack, pack, unpack_packedInfinity, unpack_packedInfinity]
      rfl
  | zero s =>
      rw [UnpackedFloat.neg, pack, pack, unpack_packedZero, unpack_packedZero]
      rfl
  | finite s m e pos =>
      rw [UnpackedFloat.neg, pack_finite, pack_finite]
      split
      · rw [unpack_packedInfinity, unpack_packedInfinity]
        rfl
      · split
        · exact unpack_packComponents_neg s _ _
        · exact unpack_packComponents_neg s _ _

theorem roundWithAccuracy_neg (s : Sign) (m : ℕ) (e : ℤ) (a : Accuracy) :
    roundWithAccuracy .binary64 (-s) m e a = (roundWithAccuracy .binary64 s m e a).neg := by
  simp only [roundWithAccuracy]
  split
  · rfl
  · rfl

theorem value_neg_mul (u v : UnpackedFloat) :
    u.neg.mul .binary64 v = (u.mul .binary64 v).neg := by
  cases u with
  | notANumber => rfl
  | _ => cases v with
    | notANumber => rfl
    | _ => simp [UnpackedFloat.mul, UnpackedFloat.neg, sign_neg_mul, roundWithAccuracy_neg]

theorem sign_mul_comm (s t : Sign) : s * t = t * s := by
  cases s with
  | _ => cases t with
    | _ => rfl

theorem value_mul_comm (u v : UnpackedFloat) : u.mul .binary64 v = v.mul .binary64 u := by
  cases u with
  | notANumber => cases v with
    | _ => rfl
  | infinity s => cases v with
    | _ => simp [UnpackedFloat.mul, sign_mul_comm s]
  | zero s => cases v with
    | _ => simp [UnpackedFloat.mul, sign_mul_comm s]
  | finite s m e pos => cases v with
    | _ => simp [UnpackedFloat.mul, sign_mul_comm s, Nat.mul_comm m, Int.add_comm e]

/-! ### Sums that are a negative zero -/

theorem normalize_neg {n : ℤ} (nonzero : n ≠ 0) (e : ℤ) (s : Sign) :
    UnpackedFloat.normalize .binary64 (-n) e s = (UnpackedFloat.normalize .binary64 n e s).neg := by
  rcases lt_or_gt_of_ne nonzero with neg | pos
  · rw [UnpackedFloat.normalize, UnpackedFloat.normalize, Int.compare_eq_gt.mpr (by omega),
      Int.compare_eq_lt.mpr neg]
    exact roundWithAccuracy_neg .negative _ _ _
  · rw [UnpackedFloat.normalize, UnpackedFloat.normalize, Int.compare_eq_lt.mpr (by omega),
      Int.compare_eq_gt.mpr pos, Int.neg_neg]
    exact roundWithAccuracy_neg .positive _ _ _

theorem abs_int_mul_two_zpow {n e : ℤ} (nonzero : n ≠ 0) (least : -1074 ≤ e) :
    (2 : ℚ) ^ (-1074 : ℤ) ≤ |(n : ℚ) * 2 ^ e| := by
  have whole : (1 : ℚ) ≤ |(n : ℚ)| := by exact_mod_cast Int.one_le_abs nonzero
  rw [abs_mul, abs_of_pos (two_zpow_pos e)]
  calc (2 : ℚ) ^ (-1074 : ℤ) ≤ 2 ^ e := two_zpow_le least
    _ = 1 * 2 ^ e := (one_mul _).symm
    _ ≤ |(n : ℚ)| * 2 ^ e := by gcongr

/-- Numbers do not cancel to a negative zero, and what is left of them does not round to one. -/
theorem normalize_ne_negative_zero (n : ℤ) {e : ℤ} (least : -1074 ≤ e) :
    UnpackedFloat.normalize .binary64 n e .positive ≠ .zero .negative := by
  intro vanished
  rcases eq_or_ne n 0 with rfl | nonzero
  · cases vanished
  · have rounds := (roundedTo_normalize n e .positive).rounds
    rw [vanished] at rounds
    have bound := rounds.two_zpow_le_abs le_rfl (abs_int_mul_two_zpow nonzero least)
    rw [rational_zero, abs_zero] at bound
    exact absurd bound (not_le.mpr (two_zpow_pos _))

/-- Only two negative zeros add up to a negative zero. -/
theorem add_eq_negative_zero {u v : UnpackedFloat} (placed : Placed u) (placed' : Placed v)
    (sum : u.add .binary64 v = .zero .negative) : u = .zero .negative ∧ v = .zero .negative := by
  cases u with
  | notANumber => cases sum
  | infinity s => cases v with
    | infinity s' =>
        rw [UnpackedFloat.add] at sum
        split at sum
        · cases sum
        · cases sum
    | _ => cases sum
  | zero s => cases v with
    | zero s' => cases s with
      | _ => cases s' with
        | _ => first | exact ⟨rfl, rfl⟩ | cases sum
    | _ => cases sum
  | finite s m e pos => cases v with
    | finite s' m' e' pos' =>
        exact absurd sum (normalize_ne_negative_zero _ (le_min placed.least placed'.least))
    | _ => cases sum

/-- A difference taken the other way round is the negative, unless there is none. -/
theorem value_sub_swap (u v : UnpackedFloat) :
    u.sub .binary64 v = (v.sub .binary64 u).neg ∨
      u.sub .binary64 v = .zero .positive ∧ v.sub .binary64 u = .zero .positive := by
  cases u with
  | notANumber => cases v with
    | _ => exact .inl rfl
  | infinity s => cases v with
    | infinity s' => cases s with
      | _ => cases s' with
        | _ => exact .inl rfl
    | notANumber => exact .inl rfl
    | zero s' => exact .inl (congrArg _ (sign_neg_neg s).symm)
    | finite s' m' e' pos' => exact .inl (congrArg _ (sign_neg_neg s).symm)
  | zero s => cases v with
    | notANumber => exact .inl rfl
    | infinity s' => exact .inl rfl
    | zero s' => cases s with
      | _ => cases s' with
        | _ => first | exact .inl rfl | exact .inr ⟨rfl, rfl⟩
    | finite s' m' e' pos' => exact .inl rfl
  | finite s m e pos => cases v with
    | notANumber => exact .inl rfl
    | infinity s' => exact .inl rfl
    | zero s' =>
        left
        exact (value_neg_neg (.finite s m e pos)).symm
    | finite s' m' e' pos' =>
        simp only [UnpackedFloat.sub, decreaseExponent, Int.min_comm e' e]
        generalize (s.apply (m <<< (e - min e e').toNat : ℕ) : ℤ) = n
        generalize (s'.apply (m' <<< (e' - min e e').toNat : ℕ) : ℤ) = n'
        rcases eq_or_ne n n' with rfl | apart
        · rw [Int.sub_self]
          exact .inr ⟨rfl, rfl⟩
        · left
          rw [← normalize_neg (by omega), Int.neg_sub]

/-! ### Binary64 treats both signs alike -/

variable {a b : Float}

theorem value_injective (same : value a = value b) : a = b := by
  have bits : a.toModel.toBits.toBitVec = b.toModel.toBits.toBitVec :=
    (unpack_inj_of_valid a.toModel.valid b.toModel.valid).mp same
  exact Float.toBits_inj.mp (UInt64.toBitVec_inj.mp bits)

theorem inRange_neg {u : UnpackedFloat} (inRange : InRange u) : InRange u.neg := by
  cases u with
  | finite s m e pos => exact inRange
  | _ => trivial

theorem value_neg (a : Float) : value (-a) = (value a).neg :=
  unpack_pack_of_inRange (inRange_neg (inRange_value a))

theorem neg_mul_float (a b : Float) : -a * b = -(a * b) := by
  apply value_injective
  rw [value_neg, value_mul, value_mul, value_neg, value_neg_mul, unpack_pack_neg]

theorem mul_comm_float (a b : Float) : a * b = b * a := by
  apply value_injective
  rw [value_mul, value_mul, value_mul_comm]

theorem isNaN_eq_true_iff : Scalar.isNaN a = true ↔ value a = .notANumber := by
  rw [← not_iff_not, Bool.not_eq_true]
  exact isNaN_eq_false_iff

theorem vanishes_iff : Scalar.Vanishes a ↔ (∃ s, value a = .zero s) ∨ value a = .notANumber := by
  rw [Scalar.Vanishes, beq_iff, isNaN_eq_true_iff, value_zero]
  refine or_congr_left' fun number => ?_
  constructor
  · intro equal
    cases taken : value a with
    | zero s => exact ⟨s, rfl⟩
    | notANumber => exact absurd taken number
    | infinity s =>
        rw [taken] at equal
        cases s with
        | _ => cases equal
    | finite s m e pos =>
        rw [taken] at equal
        cases s with
        | _ => cases equal
  · rintro ⟨s, taken⟩
    rw [taken]
    rfl

theorem add_positive_zero {u : UnpackedFloat} (unsigned : u ≠ .zero .negative) :
    u.add .binary64 (.zero .positive) = u := by
  cases u with
  | zero s => cases s with
    | positive => rfl
    | negative => exact absurd rfl unsigned
  | _ => rfl

/-- A number is a sum that began with zero unless it is a negative zero. -/
theorem isSum_iff : Scalar.IsSum a ↔ value a ≠ .zero .negative := by
  constructor
  · intro sum negative
    have same := congrArg value sum
    rw [value_add, negative, value_zero] at same
    cases same
  · intro unsigned
    apply value_injective
    rw [value_add, value_zero, add_positive_zero unsigned]
    exact unpack_pack_of_inRange (inRange_value a)

/-- Packing makes no zero of a value that has its places. -/
theorem eq_zero_of_unpack_pack {u : UnpackedFloat} {s : Sign} (placed : Placed u)
    (packed : unpack .binary64 (pack .binary64 u) = .zero s) : u = .zero s := by
  cases u with
  | finite s' m e pos =>
      rcases le_or_gt e 971 with le | more
      · have inRange : InRange (.finite s' m e pos) := ⟨placed, le⟩
        rw [unpack_pack_of_inRange inRange] at packed
        cases packed
      · rw [unpack_pack_of_lt s' pos more] at packed
        cases packed
  | zero s' => exact unpack_packedZero.symm.trans packed
  | infinity s' => cases (unpack_packedInfinity s').symm.trans packed
  | notANumber => cases unpack_packedNaN.symm.trans packed

theorem placed_add {u v : UnpackedFloat} (placed : Placed u) (placed' : Placed v) :
    Placed (u.add .binary64 v) := by
  cases u with
  | notANumber => trivial
  | infinity s => cases v with
    | infinity s' =>
        rw [UnpackedFloat.add]
        split
        · trivial
        · trivial
    | _ => trivial
  | zero s => cases v with
    | zero s' =>
        rw [UnpackedFloat.add]
        split
        · trivial
        · trivial
    | _ => exact placed'
  | finite s m e pos => cases v with
    | finite s' m' e' pos' => exact (roundedTo_add placed placed' rfl rfl).placed
    | zero s' => exact placed
    | _ => trivial

/-- A zero times anything is a zero or a NaN, and so is a NaN times anything. -/
theorem mul_vanishes {u : UnpackedFloat} (vanishes : (∃ s, u = .zero s) ∨ u = .notANumber)
    (v : UnpackedFloat) :
    (∃ s, u.mul .binary64 v = .zero s) ∨ u.mul .binary64 v = .notANumber := by
  rcases vanishes with ⟨s, rfl⟩ | rfl
  · cases v with
    | notANumber => exact .inr rfl
    | infinity s' => exact .inr rfl
    | zero s' => exact .inl ⟨_, rfl⟩
    | finite s' m' e' pos' => exact .inl ⟨_, rfl⟩
  · exact .inr rfl

/-- Taking a zero or a NaN away is adding it, except from a negative zero. -/
theorem add_eq_sub_of_vanishes {u v : UnpackedFloat} (unsigned : u ≠ .zero .negative)
    (vanishes : (∃ s, v = .zero s) ∨ v = .notANumber) :
    u.add .binary64 v = u.sub .binary64 v := by
  rcases vanishes with ⟨s, rfl⟩ | rfl
  · cases u with
    | zero s' => cases s' with
      | negative => exact absurd rfl unsigned
      | positive => cases s with
        | _ => rfl
    | _ => rfl
  · cases u with
    | _ => rfl

instance : SignSymmetric Float where
  neg_neg a := by
    apply value_injective
    rw [value_neg, value_neg, value_neg_neg]
  neg_mul := neg_mul_float
  mul_neg a b := by
    rw [mul_comm_float, neg_mul_float, mul_comm_float]
  sub_neg a b := by
    apply value_injective
    rw [value_sub, value_add, value_neg, sub_eq_add, value_neg_neg]
  sub_swap a b := by
    rcases value_sub_swap (value a) (value b) with negative | ⟨none, none'⟩
    · left
      apply value_injective
      rw [value_neg, value_sub, negative, unpack_pack_neg, value_sub]
    · right
      constructor
      · apply value_injective
        rw [value_sub, none]
        exact unpack_packedZero
      · apply value_injective
        rw [value_sub, none']
        exact unpack_packedZero
  vanishes_zero := by
    rw [vanishes_iff]
    exact .inl ⟨.positive, rfl⟩
  vanishes_mul := by
    intro a b vanishes
    rw [vanishes_iff] at vanishes ⊢
    rw [value_mul]
    rcases mul_vanishes vanishes (value b) with ⟨s, zero⟩ | nan
    · rw [zero]
      exact .inl ⟨s, unpack_packedZero⟩
    · rw [nan]
      exact .inr unpack_packedNaN
  isSum_zero := by
    rw [isSum_iff, value_zero]
    intro same
    cases same
  isSum_add := by
    intro a b sum
    rw [isSum_iff] at sum ⊢
    intro negative
    have placed := placed_add (placed_value a) (placed_value b)
    have vanished := eq_zero_of_unpack_pack placed negative
    exact sum (add_eq_negative_zero (placed_value a) (placed_value b) vanished).1
  add_eq_sub := by
    intro a b sum vanishes
    rw [isSum_iff] at sum
    rw [vanishes_iff] at vanishes
    apply value_injective
    rw [value_add, value_sub, add_eq_sub_of_vanishes sum vanishes]

end SpringLayout.Binary64
