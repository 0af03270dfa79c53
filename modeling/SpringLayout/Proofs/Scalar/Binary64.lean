import Mathlib
import SpringLayout.Proofs.Scalar.Order
import SpringLayout.Scalar.Binary64

/-!
Binary64 has the laws of comparison.

`Binary64.value` is a binary64 number taken apart into sign, mantissa and exponent. Two values that
are not NaN compare as their ranks do, which are linearly ordered (`Binary64.compare_eq_some_iff`).
What is computed is packed into 64 bits and taken apart again; this may round it to zero or to an
infinity, but it keeps the sign, and makes a NaN of nothing else (`Binary64.sign?_unpack_pack`). So
the sum of two squares, being a sum of two values of positive sign, is a number.

What packing and taking apart do to each other is in `Batteries.Data.Float.Lemmas`, which comes with
the whole of Mathlib only; hence `import Mathlib`, here and in no other module.

Main statement: the instance of `OrderedScalar`.
-/

namespace SpringLayout.Binary64

open Float.Model (UnpackedFloat Format)
open Float.Model.UnpackedFloat

/-! ### The order of values -/

/-- The place of a value in the order of all values. Both zeros have the same; that of a NaN means
nothing. -/
def rank : UnpackedFloat → ℤ ×ₗ ℤ ×ₗ ℤ
  | .infinity .negative => toLex (-2, toLex (0, 0))
  | .finite .negative mantissa exponent _ => toLex (-1, toLex (-exponent, -mantissa))
  | .finite .positive mantissa exponent _ => toLex (1, toLex (exponent, mantissa))
  | .infinity .positive => toLex (2, toLex (0, 0))
  | _ => toLex (0, toLex (0, 0))

theorem compares_then {o o' : Ordering} {k a a' b b' : ℤ} (first : o.Compares a a')
    (second : o'.Compares b b') :
    (o.then o').Compares (toLex (k, toLex (a, b))) (toLex (k, toLex (a', b'))) := by
  cases o with
  | lt => simpa [Prod.Lex.toLex_lt_toLex] using Or.inl first
  | gt => simpa [Prod.Lex.toLex_lt_toLex] using Or.inl first
  | eq =>
      obtain rfl : a = a' := first
      cases o' with
      | lt => simpa [Prod.Lex.toLex_lt_toLex] using second
      | eq => simpa using second
      | gt => simpa [Prod.Lex.toLex_lt_toLex] using second

theorem compares_neg {o : Ordering} {a a' : ℤ} (compares : o.Compares a a') :
    o.swap.Compares (-a) (-a') := by
  cases o with
  | lt => exact Int.neg_lt_neg compares
  | eq => exact congrArg Neg.neg compares
  | gt => exact Int.neg_lt_neg compares

theorem compares_cast (m m' : ℕ) : (compare m m').Compares (m : ℤ) (m' : ℤ) := by
  cases compared : compare m m' with
  | lt => exact Int.ofNat_lt.mpr (Nat.compare_eq_lt.mp compared)
  | eq => exact congrArg Int.ofNat (Nat.compare_eq_eq.mp compared)
  | gt => exact Int.ofNat_lt.mpr (Nat.compare_eq_gt.mp compared)

theorem compare_of_numbers {a b : UnpackedFloat} (number : a ≠ .notANumber)
    (number' : b ≠ .notANumber) :
    ∃ o, a.compare b = some o ∧ o.Compares (rank a) (rank b) := by
  have same : ∀ s : Sign, compare s s = .eq := by rintro (_ | _) <;> rfl
  have less : compare Sign.negative Sign.positive = .lt := rfl
  have more : compare Sign.positive Sign.negative = .gt := rfl
  rcases a with ⟨_ | _⟩ | _ | _ | ⟨_ | _, m, e, _⟩ <;>
    rcases b with ⟨_ | _⟩ | _ | _ | ⟨_ | _, m', e', _⟩
  -- Only finite values of one sign are compared by more than their kinds.
  case finite.positive.finite.positive =>
    exact ⟨_, rfl, compares_then ((compare_iff e e').mp rfl) (compares_cast m m')⟩
  case finite.negative.finite.negative =>
    refine ⟨_, rfl, ?_⟩
    rw [Ordering.swap_then]
    exact compares_then (compares_neg ((compare_iff e e').mp rfl))
      (compares_neg (compares_cast m m'))
  all_goals simp_all [rank, UnpackedFloat.compare, Prod.Lex.toLex_lt_toLex]

theorem numbers_of_compare {a b : UnpackedFloat} {o : Ordering}
    (compared : a.compare b = some o) : a ≠ .notANumber ∧ b ≠ .notANumber := by
  constructor
  · rintro rfl
    cases compared
  · rintro rfl
    rcases a with ⟨_ | _⟩ | _ | _ | ⟨_ | _, m, e, _⟩ <;> cases compared

/-- Numbers compare as their ranks do, and a NaN does not compare. -/
theorem compare_eq_some_iff {a b : UnpackedFloat} {o : Ordering} :
    a.compare b = some o ↔
      (a ≠ .notANumber ∧ b ≠ .notANumber) ∧ o.Compares (rank a) (rank b) := by
  constructor
  · intro compared
    have numbers := numbers_of_compare compared
    obtain ⟨o', compared', compares⟩ := compare_of_numbers numbers.1 numbers.2
    rw [compared] at compared'
    cases compared'
    exact ⟨numbers, compares⟩
  · rintro ⟨⟨number, number'⟩, compares⟩
    obtain ⟨o', compared, compares'⟩ := compare_of_numbers number number'
    rw [compared, compares.inj compares']

/-! ### What is packed and taken apart again -/

/-- The sign of a number; a NaN has none. -/
def sign? : UnpackedFloat → Option Sign
  | .notANumber => none
  | .infinity s => some s
  | .zero s => some s
  | .finite s _ _ _ => some s

theorem sign?_eq_none_iff {a : UnpackedFloat} : sign? a = none ↔ a = .notANumber := by
  cases a with
  | notANumber => exact iff_of_true rfl rfl
  | _ => exact iff_of_false (Option.some_ne_none _) UnpackedFloat.noConfusion

theorem unpack_packedInfinity (s : Sign) :
    unpack .binary64 (packedInfinity .binary64 s) = .infinity s := by
  cases s with
  | _ => rfl

/-- Bits whose exponent is not all ones are those of a number. -/
theorem sign?_unpack_packComponents (s : Sign) {e : BitVec 11} (regular : e ≠ -1#11)
    (m : BitVec 52) : sign? (unpack .binary64 (packComponents .binary64 s e m)) = some s := by
  rw [unpack]
  simp only [unpackMantissa_packComponents, unpackExponent_packComponents,
    unpackSign_packComponents, Sign.ofBitVec_toBitVec]
  rw [if_neg regular]
  split
  · split
    · rfl
    · rfl
  · rfl

/-- Packing may round to zero or to an infinity, but it keeps the sign. -/
theorem sign?_unpack_pack (a : UnpackedFloat) :
    sign? (unpack .binary64 (pack .binary64 a)) = sign? a := by
  cases a with
  | notANumber => rfl
  | infinity s => exact congrArg sign? (unpack_packedInfinity s)
  | zero s => exact congrArg sign? unpack_packedZero
  | finite s m e pos =>
      rw [pack]
      split
      · rw [unpack_packedInfinity]
        rfl
      · next inside =>
          split
          · refine sign?_unpack_packComponents s ?_ _
            intro ones
            have biased := congrArg BitVec.toNat ones
            change (e + 1023 + 52).toNat % 2 ^ 11 = 2 ^ 11 - 1 at biased
            change ¬ 2 ^ 11 ≤ (e + 1023 + 52).toNat + 1 at inside
            omega
          · exact sign?_unpack_packComponents s (by decide) _

/-! ### Where numbers come from -/

theorem sign?_roundWithAccuracy (s : Sign) (m : ℕ) (e : ℤ) (a : Accuracy) :
    sign? (roundWithAccuracy .binary64 s m e a) = some s := by
  simp only [roundWithAccuracy]
  split
  · rfl
  · rfl

theorem sign?_normalize_of_pos {m : ℤ} (pos : 0 < m) (e : ℤ) (s : Sign) :
    sign? (UnpackedFloat.normalize .binary64 m e s) = some .positive := by
  rw [UnpackedFloat.normalize, Int.compare_eq_gt.mpr pos]
  exact sign?_roundWithAccuracy ..

theorem normalize_ne_notANumber (m e : ℤ) (s : Sign) :
    UnpackedFloat.normalize .binary64 m e s ≠ .notANumber := by
  rw [Ne, ← sign?_eq_none_iff, UnpackedFloat.normalize]
  split
  · rw [UnpackedFloat.round, sign?_roundWithAccuracy]
    exact Option.some_ne_none _
  · exact Option.some_ne_none _
  · rw [UnpackedFloat.round, sign?_roundWithAccuracy]
    exact Option.some_ne_none _

/-- The difference of finite values is a number. -/
theorem sub_ne_notANumber {a b : UnpackedFloat} (finite : a.isFinite = true)
    (finite' : b.isFinite = true) : a.sub .binary64 b ≠ .notANumber := by
  cases a with
  | notANumber => cases finite
  | infinity s => cases finite
  | zero s =>
      cases b with
      | notANumber => cases finite'
      | infinity s' => cases finite'
      | zero s' =>
          rw [UnpackedFloat.sub]
          split
          · exact UnpackedFloat.noConfusion
          · exact UnpackedFloat.noConfusion
      | finite s' m' e' pos' => exact UnpackedFloat.noConfusion
  | finite s m e pos =>
      cases b with
      | notANumber => cases finite'
      | infinity s' => cases finite'
      | zero s' => exact UnpackedFloat.noConfusion
      | finite s' m' e' pos' => exact normalize_ne_notANumber _ _ _

/-- A square has the positive sign. -/
theorem sign?_mul_self {a : UnpackedFloat} (number : a ≠ .notANumber) :
    sign? (a.mul .binary64 a) = some .positive := by
  have square : ∀ s : Sign, s * s = .positive := by rintro (_ | _) <;> rfl
  cases a with
  | notANumber => exact absurd rfl number
  | infinity s => exact congrArg some (square s)
  | zero s => exact congrArg some (square s)
  | finite s m e pos => exact (sign?_roundWithAccuracy ..).trans (congrArg some (square s))

/-- Values of positive sign have a sum of positive sign. -/
theorem sign?_add_of_positive {a b : UnpackedFloat} (positive : sign? a = some .positive)
    (positive' : sign? b = some .positive) : sign? (a.add .binary64 b) = some .positive := by
  cases a with
  | notANumber => cases positive
  | infinity s =>
      cases positive
      cases b with
      | notANumber => cases positive'
      | infinity s' =>
          cases positive'
          rfl
      | _ => rfl
  | zero s =>
      cases positive
      cases b with
      | notANumber => cases positive'
      | zero s' =>
          cases positive'
          rfl
      | _ => exact positive'
  | finite s m e pos =>
      cases positive
      cases b with
      | notANumber => cases positive'
      | infinity s' => exact positive'
      | zero s' => rfl
      | finite s' m' e' pos' =>
          cases positive'
          refine sign?_normalize_of_pos ?_ _ _
          have shifted : 0 < m <<< (e - min e e').toNat := by
            rw [Nat.shiftLeft_eq]
            exact Nat.mul_pos pos (Nat.two_pow_pos _)
          exact Int.add_pos_of_pos_of_nonneg (Int.natCast_pos.mpr shifted) (Int.natCast_nonneg _)

/-! ### Binary64 as a scalar -/

/-- A binary64 number taken apart. -/
def value (a : Float) : UnpackedFloat := a.toModel.unpack

theorem lt_iff {a b : Float} : a < b ↔ (value a).compare (value b) = some .lt := by
  change decide (a.toModel < b.toModel) = true ↔ _
  rw [decide_eq_true_iff]
  change ((value a).compare (value b) == some .lt) = true ↔ _
  rw [beq_iff_eq]

theorem beq_iff {a b : Float} : (a == b) = true ↔ (value a).compare (value b) = some .eq := by
  change ((value a).compare (value b) == some .eq) = true ↔ _
  rw [beq_iff_eq]

theorem le_iff {a b : Float} :
    a ≤ b ↔ ∃ o, (value a).compare (value b) = some o ∧ o ≠ .gt := by
  change decide (a.toModel ≤ b.toModel) = true ↔ _
  rw [decide_eq_true_iff]
  change ((value a).compare (value b)).any (fun o => o.isLE) = true ↔ _
  simp only [Option.any_eq_true, Ordering.isLE_iff_ne_gt]

theorem le_iff_rank {a b : Float} :
    a ≤ b ↔ (value a ≠ .notANumber ∧ value b ≠ .notANumber) ∧ rank (value a) ≤ rank (value b) := by
  rw [le_iff]
  constructor
  · rintro ⟨o, compared, least⟩
    obtain ⟨numbers, compares⟩ := compare_eq_some_iff.mp compared
    exact ⟨numbers, compares.ne_gt.mp least⟩
  · rintro ⟨⟨number, number'⟩, least⟩
    obtain ⟨o, compared, compares⟩ := compare_of_numbers number number'
    exact ⟨o, compared, compares.ne_gt.mpr least⟩

theorem isNaN_eq_false_iff {a : Float} : Scalar.isNaN a = false ↔ value a ≠ .notANumber := by
  rw [Scalar.isNaN, Bool.not_eq_false', beq_iff, compare_eq_some_iff]
  simp [Ordering.Compares]

/-- What an operation packs is a number if it has a sign. -/
theorem isNaN_of_sign? {a : Float} {u : UnpackedFloat} {s : Sign}
    (packed : value a = unpack .binary64 (pack .binary64 u)) (signed : sign? u = some s) :
    Scalar.isNaN a = false := by
  rw [isNaN_eq_false_iff, Ne, ← sign?_eq_none_iff, packed, sign?_unpack_pack, signed]
  exact Option.some_ne_none s

instance : OrderedScalar Float where
  le_trans := by
    intro a b c less more
    rw [le_iff_rank] at less more ⊢
    exact ⟨⟨less.1.1, more.1.2⟩, less.2.trans more.2⟩
  le_of_lt := by
    intro a b less
    exact le_iff.mpr ⟨.lt, lt_iff.mp less, by decide⟩
  le_of_not_lt := by
    intro a b number number' notLess
    rw [isNaN_eq_false_iff] at number number'
    rw [lt_iff, compare_eq_some_iff] at notLess
    rw [le_iff_rank]
    exact ⟨⟨number, number'⟩, not_lt.mp fun less => notLess ⟨⟨number', number⟩, less⟩⟩
  isNaN_of_beq := by
    intro a b equal
    rw [isNaN_eq_false_iff, isNaN_eq_false_iff]
    exact numbers_of_compare (beq_iff.mp equal)
  isNaN_sub := by
    intro a b finite finite'
    obtain ⟨s, signed⟩ := Option.ne_none_iff_exists'.mp
      (mt sign?_eq_none_iff.mp (sub_ne_notANumber (a := value a) (b := value b) finite finite'))
    exact isNaN_of_sign? rfl signed
  isNaN_sq_add_sq := by
    intro a b number number'
    have square : ∀ {a : Float}, Scalar.isNaN a = false →
        sign? (value (a * a)) = some .positive := by
      intro a number
      exact (sign?_unpack_pack _).trans (sign?_mul_self (isNaN_eq_false_iff.mp number))
    exact isNaN_of_sign? rfl (sign?_add_of_positive (square number) (square number'))

end SpringLayout.Binary64
