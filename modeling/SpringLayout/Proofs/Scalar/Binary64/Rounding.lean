import Mathlib.Algebra.Group.Int.Even
import Mathlib.Algebra.Order.Field.Basic
import Mathlib.Tactic.Linarith
import SpringLayout.Proofs.Scalar.Binary64

/-!
Rounding to 53 places.

`Rounds x y` says that the rational `y` is `x` rounded to its last place, which is the 53rd unless
that lies below the least exponent. It says nothing of bits, and what is known of rounding is proved
of it: it keeps the order (`Rounds.mono`), it keeps powers of two where they are, and so it leads
past none of them (`Rounds.abs_le_two_zpow`).

The rest is about how values are rounded. `Keeps` says what a mantissa with two more bits still
knows of the number that it was cut off from: enough to find the nearest integer (`Keeps.nearest`).
So what is shifted to its last place and rounded there is the nearest number to what was shifted
(`roundedTo_roundWithAccuracy`).
-/

namespace SpringLayout.Binary64

open Float.Model (UnpackedFloat Format totalExponent)
open Float.Model.UnpackedFloat

/-! ### The nearest integer -/

/-- `n` is the integer nearest to `x`, or the even one of two that are equally near. -/
structure Nearest (x : ℚ) (n : ℤ) : Prop where
  near : |x - n| ≤ 1 / 2
  even : |x - n| = 1 / 2 → Even n

namespace Nearest

variable {x y : ℚ} {m n : ℤ}

theorem of_int (n : ℤ) : Nearest n n := by
  constructor
  · norm_num
  · norm_num

theorem of_lt (near : |x - n| < 1 / 2) : Nearest x n := ⟨near.le, fun tie => absurd tie near.ne⟩

theorem of_tie (tie : |x - n| = 1 / 2) (even : Even n) : Nearest x n := ⟨tie.le, fun _ => even⟩

theorem neg (nearest : Nearest x n) : Nearest (-x) (-n) := by
  have same : |-x - ((-n : ℤ) : ℚ)| = |x - n| := by
    rw [Int.cast_neg, ← neg_sub', abs_neg]
  constructor
  · rw [same]
    exact nearest.near
  · rw [same]
    exact fun tie => (nearest.even tie).neg

/-- A greater number has no smaller nearest integer. -/
theorem mono (first : Nearest x m) (second : Nearest y n) (le : x ≤ y) : m ≤ n := by
  by_contra! more
  have apart : (n : ℚ) + 1 ≤ m := by exact_mod_cast more
  have low : -(1 / 2) ≤ x - m := (abs_le.mp first.near).1
  have high : y - n ≤ 1 / 2 := (abs_le.mp second.near).2
  -- Then `x` and `y` are the same tie, and neighbours are not both even.
  have tie : |x - m| = 1 / 2 := by
    rw [show x - m = -(1 / 2) by linarith]
    norm_num
  have tie' : |y - n| = 1 / 2 := by
    rw [show y - n = 1 / 2 by linarith]
    norm_num
  have next : m = n + 1 := by
    have : (m : ℚ) = n + 1 := by linarith
    exact_mod_cast this
  have even := first.even tie
  rw [next, Int.even_add_one] at even
  exact even (second.even tie')

end Nearest

/-! ### The nearest number -/

/-- The last place of a number with 53 places that is as great as `x`, or with as many as there
are above the least exponent. -/
structure LastPlace (x : ℚ) (e : ℤ) : Prop where
  least : -1074 ≤ e
  below : |x| < 2 ^ (e + 53)
  above : e = -1074 ∨ 2 ^ (e + 52) ≤ |x|

/-- `y` is `x` rounded to its last place. -/
def Rounds (x y : ℚ) : Prop := ∃ e n : ℤ, LastPlace x e ∧ Nearest (x / 2 ^ e) n ∧ y = n * 2 ^ e

theorem two_zpow_pos (e : ℤ) : (0 : ℚ) < 2 ^ e := zpow_pos two_pos e

theorem two_zpow_le {d e : ℤ} (le : d ≤ e) : (2 : ℚ) ^ d ≤ 2 ^ e :=
  zpow_le_zpow_right₀ one_le_two le

theorem two_zpow_le_iff {d e : ℤ} : (2 : ℚ) ^ d ≤ 2 ^ e ↔ d ≤ e :=
  zpow_le_zpow_iff_right₀ one_lt_two

theorem two_zpow_lt_iff {d e : ℤ} : (2 : ℚ) ^ d < 2 ^ e ↔ d < e :=
  zpow_lt_zpow_iff_right₀ one_lt_two

theorem two_zpow_add (d e : ℤ) : (2 : ℚ) ^ (d + e) = 2 ^ d * 2 ^ e := zpow_add₀ two_ne_zero d e

theorem two_zpow_add_nat (e : ℤ) (d : ℕ) : (2 : ℚ) ^ (e + d) = ((2 ^ d : ℤ) : ℚ) * 2 ^ e := by
  rw [add_comm, two_zpow_add, zpow_natCast]
  norm_cast

theorem abs_add_le_two_zpow {x y : ℚ} {k : ℤ} (le : |x| ≤ 2 ^ k) (le' : |y| ≤ 2 ^ k) :
    |x + y| ≤ 2 ^ (k + 1) := by
  calc |x + y| ≤ |x| + |y| := abs_add_le x y
    _ ≤ 2 ^ k + 2 ^ k := add_le_add le le'
    _ = 2 ^ (k + 1) := by rw [zpow_add_one₀ two_ne_zero, mul_two]

theorem abs_sub_le_two_zpow {x y : ℚ} {k : ℤ} (le : |x| ≤ 2 ^ k) (le' : |y| ≤ 2 ^ k) :
    |x - y| ≤ 2 ^ (k + 1) := by
  rw [sub_eq_add_neg]
  exact abs_add_le_two_zpow le ((abs_neg y).trans_le le')

namespace LastPlace

variable {x y : ℚ} {d e : ℤ}

theorem neg (place : LastPlace x e) : LastPlace (-x) e :=
  ⟨place.least, (abs_neg x).symm ▸ place.below, (abs_neg x).symm ▸ place.above⟩

theorem mono (first : LastPlace x d) (second : LastPlace y e) (le : |x| ≤ |y|) : d ≤ e := by
  rcases first.above with least | above
  · rw [least]
    exact second.least
  · have : (2 : ℚ) ^ (d + 52) < 2 ^ (e + 53) := above.trans_lt (le.trans_lt second.below)
    rw [two_zpow_lt_iff] at this
    omega

end LastPlace

namespace Rounds

variable {x y x' y' : ℚ}

theorem neg (rounds : Rounds x y) : Rounds (-x) (-y) := by
  obtain ⟨e, n, place, nearest, rfl⟩ := rounds
  refine ⟨e, -n, place.neg, ?_, ?_⟩
  · rw [neg_div]
    exact nearest.neg
  · rw [Int.cast_neg, neg_mul]

/-- What lies on the last place stays as it is. -/
theorem of_last_place {e n : ℤ} (place : LastPlace (n * 2 ^ e) e) :
    Rounds (n * 2 ^ e) (n * 2 ^ e) := by
  refine ⟨e, n, place, ?_, rfl⟩
  rw [mul_div_cancel_right₀ _ (two_zpow_pos e).ne']
  exact Nearest.of_int n

theorem zero : Rounds 0 0 := by
  have place : LastPlace ((0 : ℤ) * 2 ^ (-1074 : ℤ)) (-1074) := by
    refine ⟨le_rfl, ?_, .inl rfl⟩
    rw [Int.cast_zero, zero_mul, abs_zero]
    exact two_zpow_pos _
  simpa using of_last_place place

theorem two_zpow {k : ℤ} (least : -1074 ≤ k) : Rounds (2 ^ k) (2 ^ k) := by
  obtain ⟨e, d, rfl, least', fits⟩ : ∃ (e : ℤ) (d : ℕ), k = d + e ∧ -1074 ≤ e ∧
      (d = 52 ∨ e = -1074 ∧ d < 52) := by
    rcases le_or_gt (-1074 + 52) k with normal | small
    · exact ⟨k - 52, 52, by omega, by omega, .inl rfl⟩
    · exact ⟨-1074, (k + 1074).toNat, by omega, le_rfl, .inr ⟨rfl, by omega⟩⟩
  have scaled : (2 : ℚ) ^ ((d : ℤ) + e) = ((2 ^ d : ℤ) : ℚ) * 2 ^ e := by
    rw [add_comm, two_zpow_add_nat]
  rw [scaled]
  apply of_last_place
  rw [← scaled]
  refine ⟨least', ?_, ?_⟩
  · rw [abs_of_pos (two_zpow_pos _), two_zpow_lt_iff]
    omega
  · rw [abs_of_pos (two_zpow_pos _), two_zpow_le_iff]
    omega

/-- What is rounded to a place fills at most 53 places. -/
theorem nearest_le {e n : ℤ} (below : x < 2 ^ (e + 53)) (nearest : Nearest (x / 2 ^ e) n) :
    n ≤ 2 ^ 53 := by
  refine nearest.mono (.of_int _) ?_
  rw [div_le_iff₀ (two_zpow_pos e)]
  exact below.le.trans_eq (two_zpow_add_nat e 53)

/-- What fills its place is rounded to no smaller power of two. -/
theorem le_nearest {e n : ℤ} (above : 2 ^ (e + 52) ≤ x) (nearest : Nearest (x / 2 ^ e) n) :
    2 ^ 52 ≤ n := by
  refine Nearest.mono (.of_int _) nearest ?_
  rw [le_div_iff₀ (two_zpow_pos e)]
  exact (two_zpow_add_nat e 52).symm.trans_le above

theorem mono_of_lt {d e m n : ℤ} (less : d < e) (first : LastPlace x d) (second : LastPlace y e)
    (nearest : Nearest (x / 2 ^ d) m) (nearest' : Nearest (y / 2 ^ e) n) (le : x ≤ y) :
    m * (2 : ℚ) ^ d ≤ n * 2 ^ e := by
  have above : 2 ^ (e + 52) ≤ |y| := second.above.resolve_left (by have := first.least; omega)
  rcases le_or_gt 0 y with nonneg | neg
  · have least : m ≤ 2 ^ 53 := nearest_le ((le_abs_self x).trans_lt first.below) nearest
    have most : 2 ^ 52 ≤ n := le_nearest (abs_of_nonneg nonneg ▸ above) nearest'
    calc m * (2 : ℚ) ^ d ≤ (2 ^ 53 : ℤ) * 2 ^ d := by gcongr
      _ = 2 ^ (d + 53) := (two_zpow_add_nat d 53).symm
      _ ≤ 2 ^ (e + 52) := two_zpow_le (by omega)
      _ = (2 ^ 52 : ℤ) * 2 ^ e := two_zpow_add_nat e 52
      _ ≤ n * 2 ^ e := by gcongr
  · have greater : |y| ≤ |x| := abs_le_abs_of_nonpos neg.le le
    exact absurd (second.mono first greater) (not_le.mpr less)

/-- Rounding keeps the order. -/
theorem mono (first : Rounds x x') (second : Rounds y y') (le : x ≤ y) : x' ≤ y' := by
  obtain ⟨d, m, place, nearest, rfl⟩ := first
  obtain ⟨e, n, place', nearest', rfl⟩ := second
  rcases lt_trichotomy d e with less | rfl | more
  · exact mono_of_lt less place place' nearest nearest' le
  · gcongr
    refine nearest.mono nearest' ?_
    gcongr
  · have reversed := mono_of_lt more place'.neg place.neg (neg_div _ y ▸ nearest'.neg)
      (neg_div _ x ▸ nearest.neg) (neg_le_neg le)
    push_cast at reversed
    linarith

theorem unique (first : Rounds x y) (second : Rounds x y') : y = y' :=
  le_antisymm (first.mono second le_rfl) (second.mono first le_rfl)

theorem nonneg (rounds : Rounds x y) (nonneg : 0 ≤ x) : 0 ≤ y := zero.mono rounds nonneg

theorem nonpos (rounds : Rounds x y) (nonpos : x ≤ 0) : y ≤ 0 := rounds.mono zero nonpos

theorem abs (rounds : Rounds x y) : Rounds |x| |y| := by
  rcases le_total 0 x with nonneg | nonpos
  · rwa [abs_of_nonneg nonneg, abs_of_nonneg (rounds.nonneg nonneg)]
  · rw [abs_of_nonpos nonpos, abs_of_nonpos (rounds.nonpos nonpos)]
    exact rounds.neg

/-- Rounding does not lead past a power of two. -/
theorem abs_le_two_zpow {k : ℤ} (rounds : Rounds x y) (least : -1074 ≤ k) (le : |x| ≤ 2 ^ k) :
    |y| ≤ 2 ^ k :=
  rounds.abs.mono (two_zpow least) le

theorem two_zpow_le_abs {k : ℤ} (rounds : Rounds x y) (least : -1074 ≤ k) (le : 2 ^ k ≤ |x|) :
    2 ^ k ≤ |y| :=
  (two_zpow least).mono rounds.abs le

end Rounds

/-! ### The bits that are dropped -/

/-- The mantissa is the whole part of `x`; the bits after it tell whether a half of it is left
over, and whether anything beside that is. -/
def Keeps (em : ExtendedMantissa) (x : ℚ) : Prop :=
  ∃ rest : ℚ, 0 ≤ rest ∧ rest < 1 ∧ (em.stickyBit = true ↔ 0 < rest) ∧
    x = em.mantissa + (em.roundBit.toNat + rest) / 2

namespace Keeps

variable {em : ExtendedMantissa} {x : ℚ}

theorem exact (m : ℕ) : Keeps (.ofMantissaAndAccuracy m .exact) m := by
  refine ⟨0, le_rfl, one_pos, ?_, ?_⟩
  · exact iff_of_false Bool.false_ne_true (lt_irrefl _)
  · simp [ExtendedMantissa.ofMantissaAndAccuracy]

theorem mantissa_le (keeps : Keeps em x) : (em.mantissa : ℚ) ≤ x := by
  obtain ⟨rest, nonneg, -, -, rfl⟩ := keeps
  have : (0 : ℚ) ≤ em.roundBit.toNat := Nat.cast_nonneg _
  linarith

theorem nonneg (keeps : Keeps em x) : 0 ≤ x := (Nat.cast_nonneg _).trans keeps.mantissa_le

theorem lt_mantissa_add_one (keeps : Keeps em x) : x < em.mantissa + 1 := by
  obtain ⟨rest, -, less, -, rfl⟩ := keeps
  have : (em.roundBit.toNat : ℚ) ≤ 1 := by exact_mod_cast em.roundBit.toNat_le
  linarith

theorem shiftRightOne (keeps : Keeps em x) : Keeps em.shiftRightOne (x / 2) := by
  obtain ⟨rest, nonneg, less, sticky, rfl⟩ := keeps
  have whole : ((em.mantissa % 2 : ℕ) : ℚ) + 2 * (em.mantissa / 2 : ℕ) = em.mantissa := by
    exact_mod_cast Nat.mod_add_div em.mantissa 2
  have bit : ((em.mantissa % 2 != 0).toNat : ℚ) = (em.mantissa % 2 : ℕ) := by
    rcases Nat.mod_two_eq_zero_or_one em.mantissa with even | odd
    · simp [even]
    · simp [odd]
  refine ⟨(em.roundBit.toNat + rest) / 2, ?_, ?_, ?_, ?_⟩
  · positivity
  · have : (em.roundBit.toNat : ℚ) ≤ 1 := by exact_mod_cast em.roundBit.toNat_le
    linarith
  · change (em.roundBit || em.stickyBit) = true ↔ _
    rw [Bool.or_eq_true, sticky]
    cases em.roundBit with
    | false => simp
    | true =>
        refine iff_of_true (.inl rfl) ?_
        rw [Bool.toNat_true]
        push_cast
        linarith
  · change _ = ((em.mantissa / 2 : ℕ) : ℚ) + ((em.mantissa % 2 != 0).toNat + _) / 2
    rw [bit]
    linarith

theorem shiftRight (keeps : Keeps em x) (count : ℕ) : Keeps (em >>> count) (x / 2 ^ count) := by
  change Keeps (count.repeat ExtendedMantissa.shiftRightOne em) _
  induction count with
  | zero => simpa [Nat.repeat] using keeps
  | succ count ih =>
      rw [Nat.repeat, pow_succ, ← div_div]
      exact ih.shiftRightOne

/-- The bits that are kept suffice to find the nearest integer. -/
theorem nearest (keeps : Keeps em x) : Nearest x em.roundedMantissa := by
  obtain ⟨m, roundBit, stickyBit⟩ := em
  obtain ⟨rest, nonneg, less, sticky, rfl⟩ := keeps
  cases roundBit with
  | false =>
      have down : ExtendedMantissa.roundedMantissa ⟨m, false, stickyBit⟩ = m := by
        cases stickyBit with
        | _ => rfl
      rw [down]
      apply Nearest.of_lt
      simp only [Bool.toNat_false, Nat.cast_zero, zero_add, Int.cast_natCast, add_sub_cancel_left]
      rw [abs_of_nonneg (by linarith)]
      linarith
  | true =>
      cases stickyBit with
      | false =>
          obtain rfl : rest = 0 := by
            refine le_antisymm (not_lt.mp fun pos => ?_) nonneg
            exact Bool.false_ne_true (sticky.mpr pos)
          have half : ExtendedMantissa.roundedMantissa ⟨m, true, false⟩ = m + m % 2 := rfl
          have even : Even (m + m % 2) := by
            rw [Nat.even_iff]
            omega
          rw [half]
          refine Nearest.of_tie ?_ (by exact_mod_cast even)
          rcases Nat.mod_two_eq_zero_or_one m with even | odd
          · rw [even]
            norm_num
          · rw [odd]
            norm_num
      | true =>
          have pos : 0 < rest := sticky.mp rfl
          have up : ExtendedMantissa.roundedMantissa ⟨m, true, true⟩ = m + 1 := rfl
          rw [up]
          apply Nearest.of_lt
          push_cast [Bool.toNat_true]
          rw [abs_lt]
          constructor
          · linarith
          · linarith

end Keeps

/-! ### Rounded values -/

/-- The sign as a factor. -/
def unit : Sign → ℚ
  | .positive => 1
  | .negative => -1

/-- The rational number that a finite value stands for. -/
def rational : UnpackedFloat → ℚ
  | .finite s m e _ => unit s * (m * 2 ^ e)
  | _ => 0

@[simp] theorem rational_zero (s : Sign) : rational (.zero s) = 0 := rfl

/-- The mantissa has 53 places, or as many as there are above the least exponent. -/
structure Places (m : ℕ) (e : ℤ) : Prop where
  least : -1074 ≤ e
  below : m < 2 ^ 53
  above : e = -1074 ∨ 2 ^ 52 ≤ m

/-- A value whose mantissa has the right number of places. -/
def Placed : UnpackedFloat → Prop
  | .finite _ m e _ => Places m e
  | _ => True

theorem targetExponent_binary64 (t : ℤ) :
    Format.binary64.targetExponent t = max (t - 53) (-1074) := rfl

theorem shiftToTargetExponent_of_lt {m : ℕ} {e : ℤ} (below : m < 2 ^ 53) (least : -1074 ≤ e) :
    shiftToTargetExponent .binary64 m e .exact = (⟨m, false, false⟩, e) := by
  have log : m.log2 < 53 := by
    rcases Nat.eq_zero_or_pos m with rfl | pos
    · decide
    · exact (Nat.log2_lt pos.ne').mpr below
  have still : (Format.binary64.targetExponent (totalExponent m e) - e).toNat = 0 := by
    rw [targetExponent_binary64, totalExponent]
    omega
  simp only [shiftToTargetExponent, shiftToExponent, still]
  exact Prod.ext rfl (add_zero e)

theorem shiftToTargetExponent_two_pow {e : ℤ} (least : -1074 ≤ e) :
    shiftToTargetExponent .binary64 (2 ^ 53) e .exact = (⟨2 ^ 52, false, false⟩, e + 1) := by
  have one : (Format.binary64.targetExponent (totalExponent (2 ^ 53) e) - e).toNat = 1 := by
    rw [targetExponent_binary64, totalExponent, Nat.log2_two_pow]
    omega
  simp only [shiftToTargetExponent, shiftToExponent, one]
  rfl

/-- A mantissa that is rounded up to one place too many loses it again. -/
theorem exists_shiftToTargetExponent {n : ℕ} {e : ℤ} (least : -1074 ≤ e) (le : n ≤ 2 ^ 53)
    (above : e = -1074 ∨ 2 ^ 52 ≤ n) :
    ∃ m d, shiftToTargetExponent .binary64 n e .exact = (⟨m, false, false⟩, d) ∧ Places m d ∧
      (m : ℚ) * 2 ^ d = n * 2 ^ e := by
  rcases le.lt_or_eq with less | rfl
  · exact ⟨n, e, shiftToTargetExponent_of_lt less least, ⟨least, less, above⟩, rfl⟩
  · refine ⟨2 ^ 52, e + 1, shiftToTargetExponent_two_pow least, ?_, ?_⟩
    · exact ⟨by omega, by norm_num, .inr le_rfl⟩
    · rw [zpow_add_one₀ two_ne_zero]
      push_cast
      ring

/-- The exponent that is aimed at is that of the last place. -/
theorem lastPlace_targetExponent {m : ℕ} {e : ℤ} {x : ℚ} (low : m * 2 ^ e ≤ x)
    (high : x < (m + 1) * 2 ^ e) (le : e ≤ Format.binary64.targetExponent (totalExponent m e)) :
    LastPlace x (Format.binary64.targetExponent (totalExponent m e)) := by
  have abs_eq : |x| = x := by
    refine abs_of_nonneg (le_trans ?_ low)
    have := two_zpow_pos e
    positivity
  have aimed : Format.binary64.targetExponent (totalExponent m e) =
      max ((m.log2 : ℤ) + 1 + e - 53) (-1074) := targetExponent_binary64 _
  generalize Format.binary64.targetExponent (totalExponent m e) = t at *
  refine ⟨by omega, ?_, ?_⟩
  · rw [abs_eq]
    calc x < (m + 1) * 2 ^ e := high
      _ ≤ 2 ^ (m.log2 + 1) * 2 ^ e := by
        gcongr
        exact_mod_cast Nat.lt_log2_self
      _ = 2 ^ ((m.log2 : ℤ) + 1 + e) := by
        rw [two_zpow_add, ← Nat.cast_succ, zpow_natCast]
      _ ≤ 2 ^ (t + 53) := two_zpow_le (by omega)
  · rw [abs_eq, or_iff_not_imp_left]
    intro more
    have pos : m ≠ 0 := by
      rintro rfl
      rw [Nat.log2_zero] at aimed
      omega
    calc (2 : ℚ) ^ (t + 52) = 2 ^ ((m.log2 : ℤ) + e) := by
          congr 1
          omega
      _ = 2 ^ m.log2 * 2 ^ e := by rw [two_zpow_add, zpow_natCast]
      _ ≤ m * 2 ^ e := by
        gcongr
        exact_mod_cast Nat.log2_self_le pos
      _ ≤ x := low

/-- The finite value is the nearest number to `x`. -/
structure RoundedTo (x : ℚ) (w : UnpackedFloat) : Prop where
  placed : Placed w
  finite : w.isFinite = true
  rounds : Rounds x (rational w)

theorem Rounds.unit_mul {x y : ℚ} (rounds : Rounds x y) (s : Sign) :
    Rounds (unit s * x) (unit s * y) := by
  cases s with
  | positive => simpa [unit] using rounds
  | negative => simpa [unit] using rounds.neg

theorem mantissa_ofMantissaAndAccuracy (m : ℕ) (a : Accuracy) :
    (ExtendedMantissa.ofMantissaAndAccuracy m a).mantissa = m := by
  cases a with
  | exact => rfl
  | inexact o =>
      cases o with
      | _ => rfl

/-- The first shift leads to the last place and keeps what rounding needs. -/
theorem exists_shiftToTargetExponent_keeps {m : ℕ} {e : ℤ} {a : Accuracy} {x : ℚ}
    (keeps : Keeps (.ofMantissaAndAccuracy m a) (x / 2 ^ e))
    (le : e ≤ Format.binary64.targetExponent (totalExponent m e)) :
    ∃ em t, shiftToTargetExponent .binary64 m e a = (em, t) ∧ LastPlace x t ∧
      Keeps em (x / 2 ^ t) := by
  have mantissa := mantissa_ofMantissaAndAccuracy m a
  have low : (m : ℚ) * 2 ^ e ≤ x := by
    rw [← le_div_iff₀ (two_zpow_pos e)]
    simpa only [mantissa] using keeps.mantissa_le
  have high : x < ((m : ℚ) + 1) * 2 ^ e := by
    rw [← div_lt_iff₀ (two_zpow_pos e)]
    simpa only [mantissa] using keeps.lt_mantissa_add_one
  have place := lastPlace_targetExponent low high le
  obtain ⟨count, shifted⟩ := Int.eq_ofNat_of_zero_le (Int.sub_nonneg.mpr le)
  have arrives : e + (count : ℤ) = Format.binary64.targetExponent (totalExponent m e) := by omega
  refine ⟨ExtendedMantissa.ofMantissaAndAccuracy m a >>> count, e + count, ?_, arrives ▸ place, ?_⟩
  · rw [shiftToTargetExponent, shiftToExponent, shifted]
    rfl
  · rw [two_zpow_add, ← div_div, zpow_natCast]
    exact keeps.shiftRight count

/-- What is shifted to its last place and rounded there is the nearest number. -/
theorem roundedTo_roundWithAccuracy (s : Sign) {m : ℕ} {e : ℤ} {a : Accuracy} {x : ℚ}
    (keeps : Keeps (.ofMantissaAndAccuracy m a) (x / 2 ^ e))
    (le : e ≤ Format.binary64.targetExponent (totalExponent m e)) :
    RoundedTo (unit s * x) (roundWithAccuracy .binary64 s m e a) := by
  obtain ⟨em, t, first, place, keeps⟩ := exists_shiftToTargetExponent_keeps keeps le
  have bound : em.roundedMantissa ≤ 2 ^ 53 := by
    exact_mod_cast Rounds.nearest_le ((le_abs_self x).trans_lt place.below) keeps.nearest
  have above : t = -1074 ∨ 2 ^ 52 ≤ em.roundedMantissa := by
    refine place.above.imp_right fun above => ?_
    have nonneg : 0 ≤ x := by
      simpa using (le_div_iff₀ (two_zpow_pos t)).mp keeps.nonneg
    exact_mod_cast Rounds.le_nearest (abs_of_nonneg nonneg ▸ above) keeps.nearest
  obtain ⟨m', d, second, places, same⟩ := exists_shiftToTargetExponent place.least bound above
  have rounds : Rounds x (m' * 2 ^ d) := ⟨t, _, place, keeps.nearest, by exact_mod_cast same⟩
  simp only [roundWithAccuracy, first, second]
  split
  · next zero =>
      rw [show (m' : ℚ) * 2 ^ d = 0 by rw [zero]; simp] at rounds
      refine ⟨trivial, rfl, ?_⟩
      simpa [rational] using rounds.unit_mul s
  · exact ⟨places, rfl, rounds.unit_mul s⟩

theorem roundedTo_zero (s : Sign) : RoundedTo 0 (.zero s) := ⟨trivial, rfl, Rounds.zero⟩

theorem log2_shiftLeft {m : ℕ} (pos : 0 < m) (count : ℕ) : (m <<< count).log2 = m.log2 + count := by
  induction count with
  | zero => rfl
  | succ count ih =>
      have shifted : 0 < m <<< count := by
        rw [Nat.shiftLeft_eq]
        exact Nat.mul_pos pos (Nat.two_pow_pos count)
      rw [Nat.shiftLeft_succ, Nat.log2_two_mul shifted.ne', ih, Nat.add_assoc]

theorem roundedTo_round (s : Sign) {m : ℕ} (pos : 0 < m) (e : ℤ) :
    RoundedTo (unit s * (m * 2 ^ e)) (UnpackedFloat.round .binary64 s m e) := by
  generalize aimed : Format.binary64.targetExponent (totalExponent m e) = t
  have log : (m <<< (e - t).toNat).log2 = m.log2 + (e - t).toNat := log2_shiftLeft pos _
  have same : totalExponent (m <<< (e - t).toNat) (e - (e - t).toNat) = totalExponent m e := by
    rw [totalExponent, totalExponent, log]
    push_cast
    ring
  have value : (m : ℚ) * 2 ^ e / 2 ^ (e - ((e - t).toNat : ℤ)) = (m <<< (e - t).toNat : ℕ) := by
    rw [mul_div_assoc, ← zpow_sub₀ two_ne_zero, sub_sub_cancel, zpow_natCast, Nat.shiftLeft_eq]
    push_cast
    rfl
  simp only [UnpackedFloat.round, decreaseExponent, aimed]
  apply roundedTo_roundWithAccuracy
  · rw [value]
    exact Keeps.exact _
  · rw [same, aimed]
    omega

/-- A sum or difference that was brought to one exponent is rounded to the nearest number. -/
theorem roundedTo_normalize (n e : ℤ) (s : Sign) :
    RoundedTo (n * 2 ^ e) (UnpackedFloat.normalize .binary64 n e s) := by
  rw [UnpackedFloat.normalize]
  split
  · next less =>
      have neg : n < 0 := Int.compare_eq_lt.mp less
      have cast : (n : ℚ) = unit .negative * ((-n).toNat : ℕ) := by
        rw [unit, neg_one_mul, ← Int.cast_natCast, Int.toNat_of_nonneg (by omega)]
        push_cast
        ring
      rw [cast, mul_assoc]
      exact roundedTo_round _ (by omega) e
  · next zero =>
      rw [Int.compare_eq_eq.mp zero, Int.cast_zero, zero_mul]
      exact roundedTo_zero s
  · next more =>
      have pos : 0 < n := Int.compare_eq_gt.mp more
      have cast : (n : ℚ) = unit .positive * (n.toNat : ℕ) := by
        rw [unit, one_mul, ← Int.cast_natCast, Int.toNat_of_nonneg pos.le]
      rw [cast, mul_assoc]
      exact roundedTo_round _ (by omega) e

end SpringLayout.Binary64
