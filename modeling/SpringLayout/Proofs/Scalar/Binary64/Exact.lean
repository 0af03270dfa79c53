import Mathlib.Data.Prod.Lex
import Mathlib.Tactic.Linarith
import SpringLayout.Proofs.Scalar.Binary64.Arithmetic

/-!
Binary64 numbers and the rational numbers that they stand for.

The bits of a number say exactly a value with its places and with no exponent above the greatest
(`inRange_unpack`), and packing such a value does not change it (`unpack_pack_of_inRange`). What has
its places but a greater exponent is packed as an infinity. So a result of arithmetic on finite
numbers is the exact result rounded once, or an infinity if that is past all numbers: `IsRounded`.

Finite numbers are ordered as what they stand for is (`le_iff_exact`). `AtLeast` is a lower bound
that infinity meets too; products keep such bounds (`AtLeast.mul`), so they do not vanish.
-/

namespace SpringLayout.Binary64

open Float.Model (UnpackedFloat Format totalExponent)
open Float.Model.UnpackedFloat

/-! ### What is packed and taken apart again -/

theorem toNat_implicit_append (m : BitVec 52) : (1#1 ++ m).toNat = 2 ^ 52 + m.toNat := by
  rw [BitVec.toNat_append, ← Nat.shiftLeft_add_eq_or_of_lt m.isLt]
  rfl

theorem unpack_packComponents_subnormal (s : Sign) (m : BitVec 52) (pos : 0 < m.toNat) :
    unpack .binary64 (packComponents .binary64 s 0#11 m) = .finite s m.toNat (-1074) pos := by
  have nonzero : m ≠ 0#52 := by
    rintro rfl
    exact absurd pos (lt_irrefl 0)
  simp only [unpack, unpackMantissa_packComponents, unpackExponent_packComponents,
    unpackSign_packComponents, Sign.ofBitVec_toBitVec]
  rw [if_neg (by decide), if_pos trivial, dif_neg nonzero]
  rfl

theorem unpack_packComponents_normal (s : Sign) {e : BitVec 11} (pos : 0 < e.toNat)
    (less : e.toNat < 2047) (m : BitVec 52) :
    unpack .binary64 (packComponents .binary64 s e m) =
      .finite s (2 ^ 52 + m.toNat) (e.toNat - 1075) (by omega) := by
  have notOnes : e ≠ -1#11 := by
    rintro rfl
    exact absurd less (by decide)
  have notZero : e ≠ 0#11 := by
    rintro rfl
    exact absurd pos (by decide)
  simp only [unpack, unpackMantissa_packComponents, unpackExponent_packComponents,
    unpackSign_packComponents, Sign.ofBitVec_toBitVec]
  rw [if_neg notOnes, if_neg notZero]
  congr 1
  exact toNat_implicit_append m

theorem unpack_packComponents_ones (s : Sign) (m : BitVec 52) :
    unpack .binary64 (packComponents .binary64 s (-1#11) m) =
      if m = 0#52 then .infinity s else .notANumber := by
  simp only [unpack, unpackMantissa_packComponents, unpackExponent_packComponents,
    unpackSign_packComponents, Sign.ofBitVec_toBitVec]
  rfl

/-- A value has 53 places or the least exponent, and no exponent above 971. -/
def InRange : UnpackedFloat → Prop
  | .finite _ m e _ => Places m e ∧ e ≤ 971
  | _ => True

theorem inRange_unpack (b : BitVec 64) : InRange (unpack .binary64 b) := by
  rw [← @packComponents_unpackSign_unpackExponent_unpackMantissa .binary64 b]
  generalize Sign.ofBitVec (@unpackSign .binary64 b) = s
  generalize @unpackExponent .binary64 b = e
  generalize @unpackMantissa .binary64 b = m
  change BitVec 11 at e
  change BitVec 52 at m
  have mantissaBound : m.toNat < 2 ^ 52 := m.isLt
  by_cases ones : e = -1#11
  · rw [ones, unpack_packComponents_ones]
    split
    · trivial
    · trivial
  have notOnes : e.toNat ≠ 2047 := fun same => ones (BitVec.eq_of_toNat_eq same)
  by_cases zero : e = 0#11
  · subst zero
    rcases Nat.eq_zero_or_pos m.toNat with none | pos
    · obtain rfl : m = 0#52 := BitVec.eq_of_toNat_eq none
      rw [show packComponents .binary64 s 0#11 0#52 = packedZero .binary64 s from rfl,
        unpack_packedZero]
      trivial
    · rw [unpack_packComponents_subnormal s m pos]
      exact ⟨⟨le_rfl, by omega, .inl rfl⟩, by norm_num⟩
  · have pos : 0 < e.toNat := by
      rw [Nat.pos_iff_ne_zero]
      exact fun same => zero (BitVec.eq_of_toNat_eq same)
    have less : e.toNat < 2 ^ 11 := e.isLt
    rw [unpack_packComponents_normal s pos (by omega) m]
    exact ⟨⟨by omega, by omega, .inr (by omega)⟩, by omega⟩

theorem pack_finite (s : Sign) {m : ℕ} (e : ℤ) (pos : 0 < m) :
    pack .binary64 (.finite s m e pos) =
      if 2 ^ 11 ≤ (e + 1023 + 52).toNat + 1 then packedInfinity .binary64 s
      else if m.log2 + 1 = 53 then
        packComponents .binary64 s (.ofNat 11 (e + 1023 + 52).toNat) (.ofNat 52 m)
      else packComponents .binary64 s 0#11 (.ofNat 52 m) := rfl

/-- Numbers in range are packed as they are. -/
theorem unpack_pack_of_inRange {u : UnpackedFloat} (inRange : InRange u) :
    unpack .binary64 (pack .binary64 u) = u := by
  cases u with
  | notANumber => exact unpack_packedNaN
  | infinity s => exact unpack_packedInfinity s
  | zero s => exact unpack_packedZero
  | finite s m e pos =>
      obtain ⟨places, le⟩ := inRange
      have least := places.least
      have below := places.below
      have inside : ¬ 2 ^ 11 ≤ (e + 1023 + 52).toNat + 1 := by omega
      by_cases full : 2 ^ 52 ≤ m
      · have log : m.log2 + 1 = 53 := by
          rw [(Nat.log2_eq_iff pos.ne').mpr ⟨full, below⟩]
        have exponent : (BitVec.ofNat 11 (e + 1023 + 52).toNat).toNat = (e + 1023 + 52).toNat := by
          rw [BitVec.toNat_ofNat]
          omega
        have mantissa : 2 ^ 52 + (BitVec.ofNat 52 m).toNat = m := by
          rw [BitVec.toNat_ofNat]
          omega
        have normal := unpack_packComponents_normal s
          (e := .ofNat 11 (e + 1023 + 52).toNat) (by omega) (by omega) (.ofNat 52 m)
        rw [pack_finite, if_neg inside, if_pos log]
        refine normal.trans ?_
        congr 1
        omega
      · have log : m.log2 + 1 ≠ 53 := by
          have : m.log2 < 52 := (Nat.log2_lt pos.ne').mpr (by omega)
          omega
        have mantissa : (BitVec.ofNat 52 m).toNat = m := by
          rw [BitVec.toNat_ofNat]
          omega
        have subnormal := unpack_packComponents_subnormal s (.ofNat 52 m) (by omega)
        rw [pack_finite, if_neg inside, if_neg log]
        refine subnormal.trans ?_
        congr 1
        exact (places.above.resolve_right full).symm

theorem unpack_pack_of_lt (s : Sign) {m : ℕ} {e : ℤ} (pos : 0 < m) (more : 971 < e) :
    unpack .binary64 (pack .binary64 (.finite s m e pos)) = .infinity s := by
  have outside : 2 ^ 11 ≤ (e + 1023 + 52).toNat + 1 := by omega
  rw [pack_finite, if_pos outside]
  exact unpack_packedInfinity s

/-- The greatest exponent is that of the greatest numbers. -/
theorem abs_rational_lt_iff {s : Sign} {m : ℕ} {e : ℤ} {pos : 0 < m} (places : Places m e) :
    |rational (.finite s m e pos)| < 2 ^ (1024 : ℤ) ↔ e ≤ 971 := by
  have place := places.lastPlace s
  symm
  constructor
  · intro le
    exact place.below.trans_le (two_zpow_le (by omega))
  · intro less
    rcases place.above with least | above
    · omega
    · have := two_zpow_lt_iff.mp (above.trans_lt less)
      omega

/-! ### The exact value of a number -/

variable {a b : Float}

/-- The rational number that a finite number stands for. -/
def exact (a : Float) : ℚ := rational (value a)

theorem value_add (a b : Float) :
    value (a + b) = unpack .binary64 (pack .binary64 ((value a).add .binary64 (value b))) := rfl

theorem value_sub (a b : Float) :
    value (a - b) = unpack .binary64 (pack .binary64 ((value a).sub .binary64 (value b))) := rfl

theorem value_mul (a b : Float) :
    value (a * b) = unpack .binary64 (pack .binary64 ((value a).mul .binary64 (value b))) := rfl

theorem add_notANumber (u : UnpackedFloat) : u.add .binary64 .notANumber = .notANumber := by
  cases u with
  | _ => rfl

theorem value_zero : value ((0 : Nat) : Float) = .zero .positive := rfl

theorem isFinite_eq (a : Float) : Scalar.isFinite a = (value a).isFinite := rfl

theorem inRange_value (a : Float) : InRange (value a) := inRange_unpack _

theorem placed_of_inRange {u : UnpackedFloat} (inRange : InRange u) : Placed u := by
  cases u with
  | finite s m e pos => exact inRange.1
  | _ => trivial

theorem placed_value (a : Float) : Placed (value a) := placed_of_inRange (inRange_value a)

theorem abs_exact_lt (a : Float) : |exact a| < 2 ^ (1024 : ℤ) := by
  have inRange := inRange_value a
  rw [exact]
  cases taken : value a with
  | finite s m e pos =>
      rw [taken] at inRange
      exact (abs_rational_lt_iff inRange.1).mpr inRange.2
  | _ => exact abs_zero.trans_lt (two_zpow_pos _)

/-- The sign that a number other than zero has. -/
def signOf (y : ℚ) : Sign := if 0 < y then .positive else .negative

/-- `a` is the nearest number to `x`, or an infinity if `x` is rounded past all numbers. -/
def IsRounded (x : ℚ) (a : Float) : Prop :=
  ∃ y, Rounds x y ∧
    if |y| < 2 ^ (1024 : ℤ) then Scalar.isFinite a = true ∧ exact a = y
    else value a = .infinity (signOf y)

/-- What an operation packs is rounded once more only if it is too great. -/
theorem isRounded_of_value {x : ℚ} {u : UnpackedFloat} (rounded : RoundedTo x u)
    (packed : value a = unpack .binary64 (pack .binary64 u)) : IsRounded x a := by
  obtain ⟨placed, finite, rounds⟩ := rounded
  refine ⟨_, rounds, ?_⟩
  cases u with
  | notANumber => cases finite
  | infinity s => cases finite
  | zero s =>
      have same : value a = .zero s := packed.trans unpack_packedZero
      rw [if_pos (by simp [rational]), isFinite_eq, exact, same]
      exact ⟨rfl, rfl⟩
  | finite s m e pos =>
      have small : |rational (.finite s m e pos)| < 2 ^ (1024 : ℤ) ↔ e ≤ 971 :=
        abs_rational_lt_iff placed
      rcases le_or_gt e 971 with le | more
      · have same : value a = .finite s m e pos :=
          packed.trans (unpack_pack_of_inRange ⟨placed, le⟩)
        rw [if_pos (small.mpr le), isFinite_eq, exact, same]
        exact ⟨rfl, rfl⟩
      · rw [if_neg (fun less => absurd (small.mp less) (not_le.mpr more)), packed,
          unpack_pack_of_lt s pos more]
        have magnitude : (0 : ℚ) < m * 2 ^ e := mul_pos (by exact_mod_cast pos) (two_zpow_pos e)
        cases s with
        | positive => simp [signOf, rational, unit, magnitude]
        | negative => simp [signOf, rational, unit, magnitude.le]

section Operations

variable (finite : Scalar.isFinite a = true) (finite' : Scalar.isFinite b = true)
include finite finite'

theorem isRounded_add : IsRounded (exact a + exact b) (a + b) :=
  isRounded_of_value (roundedTo_add (placed_value a) (placed_value b) finite finite') rfl

theorem isRounded_sub : IsRounded (exact a - exact b) (a - b) :=
  isRounded_of_value (roundedTo_sub (placed_value a) (placed_value b) finite finite') rfl

theorem isRounded_mul : IsRounded (exact a * exact b) (a * b) :=
  isRounded_of_value (roundedTo_mul (placed_value a) (placed_value b) finite finite') rfl

theorem isRounded_div (nonzero : exact b ≠ 0) : IsRounded (exact a / exact b) (a / b) :=
  isRounded_of_value (roundedTo_div (placed_value a) (placed_value b) finite finite' nonzero) rfl

end Operations

namespace IsRounded

variable {x y : ℚ}

/-- The exact value of a finite number is the one that was rounded to it. -/
theorem rounds (rounded : IsRounded x a) (finite : Scalar.isFinite a = true) :
    Rounds x (exact a) := by
  obtain ⟨y, rounds, result⟩ := rounded
  split at result
  · rwa [result.2]
  · rw [isFinite_eq, result] at finite
    cases finite

/-- What is no greater than something rounded to a finite number is rounded to a finite number. -/
theorem isFinite_of_abs_le (rounded : IsRounded x a) (rounded' : IsRounded y b)
    (le : |x| ≤ |y|) (finite : Scalar.isFinite b = true) : Scalar.isFinite a = true := by
  obtain ⟨x', rounds, result⟩ := rounded
  have rounds' := rounded'.rounds finite
  obtain ⟨y', same, result'⟩ := rounded'
  obtain rfl := same.unique rounds'
  split at result
  · exact result.1
  · next great =>
    split at result'
    · next small => exact absurd ((rounds.abs.mono rounds'.abs le).trans_lt small) great
    · rw [isFinite_eq, result'] at finite
      cases finite

theorem abs_le (rounded : IsRounded x a) {k : ℤ} (least : -1074 ≤ k) (most : k < 1024)
    (le : |x| ≤ 2 ^ k) : Scalar.isFinite a = true ∧ |exact a| ≤ 2 ^ k := by
  obtain ⟨x', rounds, result⟩ := rounded
  have bound := rounds.abs_le_two_zpow least le
  rw [if_pos (bound.trans_lt (two_zpow_lt_iff.mpr most))] at result
  exact ⟨result.1, result.2 ▸ bound⟩

end IsRounded

/-! ### The order of finite numbers -/

theorem magnitude_lt {m n : ℕ} {d e : ℤ} (first : Places m d) (second : Places n e)
    (less : d < e ∨ d = e ∧ m < n) : (m : ℚ) * 2 ^ d < n * 2 ^ e := by
  rcases less with less | ⟨rfl, less⟩
  · have full : 2 ^ 52 ≤ n := second.above.resolve_left (by have := first.least; omega)
    calc (m : ℚ) * 2 ^ d < (2 ^ 53 : ℤ) * 2 ^ d := by
          gcongr
          exact_mod_cast first.below
      _ = 2 ^ (d + 53) := (two_zpow_add_nat d 53).symm
      _ ≤ 2 ^ (e + 52) := two_zpow_le (by omega)
      _ = (2 ^ 52 : ℤ) * 2 ^ e := two_zpow_add_nat e 52
      _ ≤ n * 2 ^ e := by
        gcongr
        exact_mod_cast full
  · gcongr

/-- A finite value of lower rank stands for a smaller number. -/
theorem rational_lt_of_rank_lt {u v : UnpackedFloat} (placed : Placed u) (placed' : Placed v)
    (finite : u.isFinite = true) (finite' : v.isFinite = true) (less : rank u < rank v) :
    rational u < rational v := by
  have magnitude : ∀ {m : ℕ} (e : ℤ), 0 < m → (0 : ℚ) < m * 2 ^ e := fun e pos =>
    mul_pos (by exact_mod_cast pos) (two_zpow_pos e)
  rcases u with ⟨_ | _⟩ | _ | _ | ⟨_ | _, m, d, pos⟩ <;>
    rcases v with ⟨_ | _⟩ | _ | _ | ⟨_ | _, n, e, pos'⟩
  case finite.positive.finite.positive =>
    simp only [rank, Prod.Lex.toLex_lt_toLex, Nat.cast_lt, lt_irrefl, false_or, true_and] at less
    simpa [rational, unit] using magnitude_lt placed placed' less
  case finite.negative.finite.negative =>
    simp only [rank, Prod.Lex.toLex_lt_toLex, neg_lt_neg_iff, neg_inj, Nat.cast_lt, lt_irrefl,
      false_or, true_and] at less
    simpa [rational, unit] using magnitude_lt placed' placed (less.imp_right (.imp_left .symm))
  case zero.finite.positive => simpa [rational, unit] using magnitude e pos'
  case finite.negative.zero => simpa [rational, unit] using magnitude d pos
  case finite.negative.finite.positive =>
    have := magnitude d pos
    have := magnitude e pos'
    simp only [rational, unit]
    linarith
  all_goals first
    | exact absurd finite Bool.false_ne_true
    | exact absurd finite' Bool.false_ne_true
    | simp [rank, Prod.Lex.toLex_lt_toLex] at less

theorem rational_eq_of_rank_eq {u v : UnpackedFloat} (finite : u.isFinite = true)
    (finite' : v.isFinite = true) (same : rank u = rank v) : rational u = rational v := by
  rcases u with ⟨_ | _⟩ | _ | _ | ⟨_ | _, m, d, pos⟩ <;>
    rcases v with ⟨_ | _⟩ | _ | _ | ⟨_ | _, n, e, pos'⟩
  all_goals first
    | exact absurd finite Bool.false_ne_true
    | exact absurd finite' Bool.false_ne_true
    | simp_all [rank, rational]

theorem lt_iff_rank :
    a < b ↔ (value a ≠ .notANumber ∧ value b ≠ .notANumber) ∧ rank (value a) < rank (value b) := by
  rw [lt_iff, compare_eq_some_iff]
  rfl

theorem lt_of_lt_of_le {c : Float} (less : a < b) (le : b ≤ c) : a < c := by
  rw [lt_iff_rank] at less ⊢
  rw [le_iff_rank] at le
  exact ⟨⟨less.1.1, le.1.2⟩, less.2.trans_le le.2⟩

theorem not_lt_of_le (le : a ≤ b) : ¬ b < a := by
  rw [lt_iff_rank]
  rw [le_iff_rank] at le
  rintro ⟨-, more⟩
  exact absurd le.2 (not_le.mpr more)

theorem isNaN_of_lt (less : a < b) : Scalar.isNaN b = false :=
  isNaN_eq_false_iff.mpr (lt_iff_rank.mp less).1.2

theorem ne_notANumber_of_isFinite (finite : Scalar.isFinite a = true) :
    value a ≠ .notANumber := by
  intro nan
  rw [isFinite_eq, nan] at finite
  cases finite

/-- Finite numbers lie between the infinities. -/
theorem rank_of_isFinite {u : UnpackedFloat} (finite : u.isFinite = true) :
    rank (.infinity .negative) < rank u ∧ rank u < rank (.infinity .positive) := by
  rcases u with ⟨_ | _⟩ | _ | _ | ⟨_ | _, m, e, pos⟩
  all_goals first
    | exact absurd finite Bool.false_ne_true
    | simp [rank, Prod.Lex.toLex_lt_toLex]

section Order

variable (finite : Scalar.isFinite a = true) (finite' : Scalar.isFinite b = true)
include finite finite'

theorem rank_le_iff : rank (value a) ≤ rank (value b) ↔ exact a ≤ exact b := by
  constructor
  · intro le
    rcases le.lt_or_eq with less | same
    · exact (rational_lt_of_rank_lt (placed_value a) (placed_value b) finite finite' less).le
    · exact (rational_eq_of_rank_eq finite finite' same).le
  · intro le
    by_contra! less
    exact absurd le (not_le.mpr
      (rational_lt_of_rank_lt (placed_value b) (placed_value a) finite' finite less))

/-- Finite numbers are ordered as what they stand for is. -/
theorem le_iff_exact : a ≤ b ↔ exact a ≤ exact b := by
  rw [le_iff_rank, ← rank_le_iff finite finite']
  exact and_iff_right ⟨ne_notANumber_of_isFinite finite, ne_notANumber_of_isFinite finite'⟩

theorem lt_iff_exact : a < b ↔ exact a < exact b := by
  rw [lt_iff_rank, ← not_le, ← not_le, rank_le_iff finite' finite]
  exact and_iff_right ⟨ne_notANumber_of_isFinite finite, ne_notANumber_of_isFinite finite'⟩

end Order

/-! ### Numbers that are great enough -/

/-- The number is at least `x`, or infinite. -/
def AtLeast (x : ℚ) (a : Float) : Prop :=
  value a = .infinity .positive ∨ Scalar.isFinite a = true ∧ x ≤ exact a

theorem IsRounded.atLeast {x : ℚ} {k : ℤ} (rounded : IsRounded x a) (least : -1074 ≤ k)
    (le : 2 ^ k ≤ x) : AtLeast (2 ^ k) a := by
  obtain ⟨y, rounds, result⟩ := rounded
  have great : 2 ^ k ≤ y := (Rounds.two_zpow least).mono rounds le
  split at result
  · exact .inr ⟨result.1, result.2.symm ▸ great⟩
  · left
    rw [result, signOf, if_pos ((two_zpow_pos k).trans_le great)]

theorem eq_finite_of_exact_pos (positive : 0 < exact a) :
    ∃ m e pos, value a = .finite .positive m e pos := by
  rw [exact] at positive
  cases taken : value a with
  | finite s m e pos =>
      rw [taken] at positive
      cases s with
      | positive => exact ⟨m, e, pos, rfl⟩
      | negative =>
          have magnitude : (0 : ℚ) ≤ m * 2 ^ e := mul_nonneg (Nat.cast_nonneg m) (two_zpow_pos e).le
          rw [rational, unit] at positive
          linarith
  | _ =>
      rw [taken] at positive
      exact absurd positive (lt_irrefl 0)

namespace AtLeast

variable {x : ℚ} {k l : ℤ}

theorem of_le (finite : Scalar.isFinite b = true) (le : b ≤ a) : AtLeast (exact b) a := by
  obtain ⟨⟨-, number⟩, ranks⟩ := le_iff_rank.mp le
  by_cases finite' : Scalar.isFinite a = true
  · exact .inr ⟨finite', (le_iff_exact finite finite').mp le⟩
  · left
    rw [isFinite_eq] at finite finite'
    cases taken : value a with
    | infinity s =>
        cases s with
        | positive => rfl
        | negative =>
            rw [taken] at ranks
            exact absurd ranks (not_le.mpr (rank_of_isFinite finite).1)
    | notANumber => exact absurd taken number
    | _ =>
        rw [taken] at finite'
        exact absurd rfl finite'

theorem pos (positive : 0 < x) (atLeast : AtLeast x a) : ((0 : Nat) : Float) < a := by
  rcases atLeast with infinite | ⟨finite, le⟩
  · rw [lt_iff_rank, infinite, value_zero]
    exact ⟨⟨UnpackedFloat.noConfusion, UnpackedFloat.noConfusion⟩, by decide⟩
  · rw [lt_iff_exact rfl finite]
    exact positive.trans_le le

/-- Products of numbers that are great enough do not vanish. -/
theorem mul (first : AtLeast (2 ^ k) a) (second : AtLeast (2 ^ l) b) (least : -1074 ≤ k + l) :
    AtLeast (2 ^ (k + l)) (a * b) := by
  rcases first with infinite | ⟨finite, le⟩
  · left
    rcases second with infinite' | ⟨-, le'⟩
    · rw [value_mul, infinite, infinite']
      exact unpack_packedInfinity _
    · obtain ⟨m, e, pos, taken⟩ := eq_finite_of_exact_pos ((two_zpow_pos l).trans_le le')
      rw [value_mul, infinite, taken]
      exact unpack_packedInfinity _
  · rcases second with infinite' | ⟨finite', le'⟩
    · left
      obtain ⟨m, e, pos, taken⟩ := eq_finite_of_exact_pos ((two_zpow_pos k).trans_le le)
      rw [value_mul, taken, infinite']
      exact unpack_packedInfinity _
    · refine (isRounded_mul finite finite').atLeast least ?_
      rw [two_zpow_add]
      exact mul_le_mul le le' (two_zpow_pos l).le ((two_zpow_pos k).le.trans le)

end AtLeast

end SpringLayout.Binary64
