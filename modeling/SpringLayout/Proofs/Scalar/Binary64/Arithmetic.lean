import Mathlib.Tactic.FieldSimp
import Mathlib.Tactic.Linarith
import SpringLayout.Proofs.Scalar.Binary64.Rounding

/-!
Sums, differences, products and quotients of finite values are the exact ones, rounded once.

Each operation hands over to rounding what is exactly its result (sums and products), or a whole
part of it and how much is left over (`divCore_keeps`), and cuts off no place that rounding needs.
Main statements: `roundedTo_add`, `roundedTo_sub`, `roundedTo_mul`, `roundedTo_div`.
-/

namespace SpringLayout.Binary64

open Float.Model (UnpackedFloat Format totalExponent)
open Float.Model.UnpackedFloat

/-! ### Signs -/

@[simp] theorem unit_neg (s : Sign) : unit (-s) = -unit s := by
  cases s with
  | positive => rfl
  | negative => exact (neg_neg (1 : ℚ)).symm

@[simp] theorem unit_mul (s t : Sign) : unit (s * t) = unit s * unit t := by
  cases s with
  | positive => cases t with
    | positive => exact (one_mul (1 : ℚ)).symm
    | negative => exact (one_mul (-1 : ℚ)).symm
  | negative => cases t with
    | positive => exact (mul_one (-1 : ℚ)).symm
    | negative => exact (neg_mul_neg (1 : ℚ) 1).symm ▸ (one_mul (1 : ℚ)).symm

theorem div_sign (s t : Sign) : s / t = s * t := by
  cases s with
  | _ => cases t with
    | _ => rfl

theorem cast_apply (s : Sign) (m : ℤ) : (s.apply m : ℚ) = unit s * m := by
  cases s with
  | positive => exact (one_mul (m : ℚ)).symm
  | negative => simp [Sign.apply, unit]

theorem rational_neg (u : UnpackedFloat) : rational u.neg = -rational u := by
  cases u with
  | finite s m e pos => simp [UnpackedFloat.neg, rational]
  | _ => exact neg_zero.symm

theorem placed_neg {u : UnpackedFloat} (placed : Placed u) : Placed u.neg := by
  cases u with
  | finite s m e pos => exact placed
  | _ => trivial

theorem isFinite_neg (u : UnpackedFloat) : u.neg.isFinite = u.isFinite := by
  cases u with
  | _ => rfl

/-! ### Operations on placed values -/

variable {u v : UnpackedFloat}

theorem Places.lastPlace {m : ℕ} {e : ℤ} (places : Places m e) (s : Sign) :
    LastPlace (unit s * (m * 2 ^ e)) e := by
  have abs_eq : |unit s * ((m : ℚ) * 2 ^ e)| = m * 2 ^ e := by
    have nonneg : (0 : ℚ) ≤ m * 2 ^ e := mul_nonneg (Nat.cast_nonneg _) (two_zpow_pos e).le
    cases s with
    | positive => rw [unit, one_mul, abs_of_nonneg nonneg]
    | negative => rw [unit, neg_one_mul, abs_neg, abs_of_nonneg nonneg]
  refine ⟨places.least, ?_, ?_⟩
  · rw [abs_eq, add_comm, two_zpow_add]
    gcongr
    exact_mod_cast places.below
  · rw [abs_eq, add_comm, two_zpow_add]
    refine places.above.imp_right fun above => ?_
    gcongr
    exact_mod_cast above

/-- A value with the right number of places is not rounded any more. -/
theorem roundedTo_self (placed : Placed u) (finite : u.isFinite = true) :
    RoundedTo (rational u) u := by
  refine ⟨placed, finite, ?_⟩
  cases u with
  | finite s m e pos =>
      have whole : rational (.finite s m e pos) = (s.apply m : ℤ) * 2 ^ e := by
        rw [cast_apply, mul_assoc]
        rfl
      rw [whole]
      apply Rounds.of_last_place
      rw [← whole]
      exact Places.lastPlace placed s
  | zero s => exact Rounds.zero
  | infinity s => cases finite
  | notANumber => cases finite

/-- A mantissa is shifted so far that its exponent becomes the lesser one. -/
theorem decreased (s : Sign) (m : ℕ) {d e : ℤ} (le : d ≤ e) :
    (s.apply (m <<< (e - d).toNat : ℕ) : ℚ) * 2 ^ d = unit s * (m * 2 ^ e) := by
  obtain ⟨count, rfl⟩ : ∃ count : ℕ, e = d + count := ⟨(e - d).toNat, by omega⟩
  rw [add_sub_cancel_left, Int.toNat_natCast, cast_apply, Nat.shiftLeft_eq, two_zpow_add,
    zpow_natCast]
  push_cast
  ring

theorem roundedTo_add (placed : Placed u) (placed' : Placed v) (finite : u.isFinite = true)
    (finite' : v.isFinite = true) :
    RoundedTo (rational u + rational v) (u.add .binary64 v) := by
  have whole := roundedTo_self placed finite
  have whole' := roundedTo_self placed' finite'
  cases u with
  | notANumber => cases finite
  | infinity s => cases finite
  | zero s =>
      rw [rational_zero, zero_add]
      cases v with
      | notANumber => cases finite'
      | infinity s' => cases finite'
      | zero s' =>
          rw [UnpackedFloat.add]
          split
          · exact roundedTo_zero _
          · exact roundedTo_zero _
      | finite s' m' e' pos' => exact whole'
  | finite s m e pos =>
      cases v with
      | notANumber => cases finite'
      | infinity s' => cases finite'
      | zero s' =>
          rw [rational_zero, add_zero]
          exact whole
      | finite s' m' e' pos' =>
          have sum : rational (.finite s m e pos) + rational (.finite s' m' e' pos') =
              (s.apply (m <<< (e - min e e').toNat : ℕ) +
                s'.apply (m' <<< (e' - min e e').toNat : ℕ) : ℤ) * 2 ^ min e e' := by
            rw [Int.cast_add, add_mul, decreased s m (min_le_left e e'),
              decreased s' m' (min_le_right e e')]
            rfl
          rw [sum]
          exact roundedTo_normalize _ _ _

/-- Subtracting is adding the negative. -/
theorem sub_eq_add (u v : UnpackedFloat) : u.sub .binary64 v = u.add .binary64 v.neg := by
  have opposite : ∀ (s : Sign) (m : ℤ), (-s).apply m = -s.apply m := by
    rintro (_ | _) m
    · exact (neg_neg m).symm
    · rfl
  cases u with
  | notANumber => rfl
  | infinity s =>
      cases v with
      | _ => rfl
  | zero s =>
      cases v with
      | _ => rfl
  | finite s m e pos =>
      cases v with
      | finite s' m' e' pos' =>
          simp only [UnpackedFloat.sub, UnpackedFloat.neg, UnpackedFloat.add, opposite]
          rfl
      | _ => rfl

theorem roundedTo_sub (placed : Placed u) (placed' : Placed v) (finite : u.isFinite = true)
    (finite' : v.isFinite = true) :
    RoundedTo (rational u - rational v) (u.sub .binary64 v) := by
  rw [sub_eq_add, sub_eq_add_neg, ← rational_neg]
  exact roundedTo_add placed (placed_neg placed') finite ((isFinite_neg v).trans finite')

theorem two_pow_52_le_mul {m n : ℕ} (le : 2 ^ 52 ≤ m) (pos : 0 < n) : 2 ^ 52 ≤ m * n :=
  le.trans (Nat.le_mul_of_pos_right m pos)

/-- The product of two mantissas has all the places that there can be. -/
theorem add_le_targetExponent {m n : ℕ} {d e : ℤ} (first : Places m d) (second : Places n e)
    (pos : 0 < m) (pos' : 0 < n) :
    d + e ≤ Format.binary64.targetExponent (totalExponent (m * n) (d + e)) := by
  rw [targetExponent_binary64, totalExponent]
  have product : m * n ≠ 0 := (Nat.mul_pos pos pos').ne'
  by_cases full : 2 ^ 52 ≤ m * n
  · have log : 52 ≤ (m * n).log2 := (Nat.le_log2 product).mpr full
    omega
  · have low : d = -1074 := first.above.resolve_right fun above =>
      full (two_pow_52_le_mul above pos')
    have low' : e = -1074 := second.above.resolve_right fun above =>
      full (Nat.mul_comm n m ▸ two_pow_52_le_mul above pos)
    omega

theorem roundedTo_mul (placed : Placed u) (placed' : Placed v) (finite : u.isFinite = true)
    (finite' : v.isFinite = true) :
    RoundedTo (rational u * rational v) (u.mul .binary64 v) := by
  cases u with
  | notANumber => cases finite
  | infinity s => cases finite
  | zero s =>
      rw [rational_zero, zero_mul]
      cases v with
      | notANumber => cases finite'
      | infinity s' => cases finite'
      | zero s' => exact roundedTo_zero _
      | finite s' m' e' pos' => exact roundedTo_zero _
  | finite s m e pos =>
      cases v with
      | notANumber => cases finite'
      | infinity s' => cases finite'
      | zero s' =>
          rw [rational_zero, mul_zero]
          exact roundedTo_zero _
      | finite s' m' e' pos' =>
          have product : rational (.finite s m e pos) * rational (.finite s' m' e' pos') =
              unit (s * s') * (((m * m' : ℕ) : ℚ) * 2 ^ (e + e')) := by
            rw [unit_mul, two_zpow_add]
            push_cast [rational]
            ring
          rw [product]
          refine roundedTo_roundWithAccuracy _ ?_ (add_le_targetExponent placed placed' pos pos')
          rw [mul_div_cancel_right₀ _ (two_zpow_pos _).ne']
          exact Keeps.exact _

/-! ### Quotients -/

theorem keeps_fraction (q : ℕ) {r n : ℕ} (less : r < n) :
    Keeps (.ofMantissaAndAccuracy q (accuracyOfFraction r n)) (q + r / n) := by
  have pos : (0 : ℚ) < n := by exact_mod_cast r.zero_le.trans_lt less
  have fraction : (r : ℚ) / n < 1 := by
    rw [div_lt_one pos]
    exact_mod_cast less
  have nonneg : (0 : ℚ) ≤ r / n := by positivity
  unfold accuracyOfFraction
  split
  · next zero =>
      simpa [zero] using Keeps.exact q
  · next rest =>
      have more : (0 : ℚ) < r / n := by
        have : (0 : ℚ) < r := by exact_mod_cast Nat.pos_of_ne_zero rest
        positivity
      cases compared : compare (2 * r) n with
      | lt =>
          have half : 2 * ((r : ℚ) / n) < 1 := by
            rw [← mul_div_assoc, div_lt_one pos]
            exact_mod_cast Nat.compare_eq_lt.mp compared
          refine ⟨2 * (r / n), by linarith, half, iff_of_true rfl (by linarith), ?_⟩
          simp [ExtendedMantissa.ofMantissaAndAccuracy]
      | eq =>
          have half : 2 * ((r : ℚ) / n) = 1 := by
            rw [← mul_div_assoc, div_eq_one_iff_eq pos.ne']
            exact_mod_cast Nat.compare_eq_eq.mp compared
          refine ⟨0, le_rfl, one_pos, iff_of_false Bool.false_ne_true (lt_irrefl _), ?_⟩
          simp only [ExtendedMantissa.ofMantissaAndAccuracy, Bool.toNat_true]
          push_cast
          linarith
      | gt =>
          have half : 1 < 2 * ((r : ℚ) / n) := by
            rw [← mul_div_assoc, one_lt_div pos]
            exact_mod_cast Nat.compare_eq_gt.mp compared
          refine ⟨2 * (r / n) - 1, by linarith, by linarith, iff_of_true rfl (by linarith), ?_⟩
          simp only [ExtendedMantissa.ofMantissaAndAccuracy, Bool.toNat_true]
          push_cast
          linarith

theorem two_zpow_log2_le {m : ℕ} (pos : 0 < m) (e : ℤ) : (2 : ℚ) ^ (m.log2 + e) ≤ m * 2 ^ e := by
  rw [two_zpow_add, zpow_natCast]
  gcongr
  exact_mod_cast Nat.log2_self_le pos.ne'

theorem add_one_mul_le_two_zpow (m : ℕ) (e : ℤ) :
    ((m : ℚ) + 1) * 2 ^ e ≤ 2 ^ (totalExponent m e) := by
  rw [totalExponent, two_zpow_add, ← Nat.cast_succ, ← Nat.cast_succ, zpow_natCast]
  gcongr
  exact_mod_cast Nat.lt_log2_self

/-- How great a quotient is, from how great its parts are. -/
theorem sub_le_totalExponent {m n q : ℕ} {d e t : ℤ} (pos : 0 < m) (pos' : 0 < n)
    (less : (m : ℚ) * 2 ^ d / (n * 2 ^ e) < (q + 1) * 2 ^ t) :
    totalExponent m d - totalExponent n e ≤ totalExponent q t := by
  have divisor : (0 : ℚ) < n * 2 ^ e := mul_pos (by exact_mod_cast pos') (two_zpow_pos e)
  have bound : (2 : ℚ) ^ (m.log2 + d) < 2 ^ (totalExponent q t + totalExponent n e) := by
    calc (2 : ℚ) ^ (m.log2 + d) ≤ m * 2 ^ d := two_zpow_log2_le pos d
      _ < (q + 1) * 2 ^ t * (n * 2 ^ e) := (div_lt_iff₀ divisor).mp less
      _ ≤ 2 ^ totalExponent q t * ((n + 1) * 2 ^ e) := by
        gcongr
        · exact add_one_mul_le_two_zpow q t
        · exact (lt_add_one _).le
      _ ≤ 2 ^ totalExponent q t * 2 ^ totalExponent n e := by
        gcongr
        exact add_one_mul_le_two_zpow n e
      _ = _ := (two_zpow_add _ _).symm
  rw [two_zpow_lt_iff] at bound
  unfold totalExponent at *
  omega

/-- What is known of the quotient that is found before rounding. -/
theorem divCore_keeps {m n : ℕ} (pos : 0 < m) (pos' : 0 < n) (d e : ℤ) :
    ∃ q t a, divCore .binary64 m d n e = (q, t, a) ∧
      Keeps (.ofMantissaAndAccuracy q a) (m * 2 ^ d / (n * 2 ^ e) / 2 ^ t) ∧
      t ≤ Format.binary64.targetExponent (totalExponent q t) := by
  have pos₀ : (0 : ℚ) < n := by exact_mod_cast pos'
  obtain ⟨t, least⟩ : ∃ t, min (d - e)
      (Format.binary64.targetExponent (totalExponent m d - totalExponent n e)) = t := ⟨_, rfl⟩
  obtain ⟨count, shift⟩ : ∃ count : ℕ, d - e = t + count :=
    ⟨(d - e - t).toNat, by omega⟩
  have quotient : (m : ℚ) * 2 ^ d / (n * 2 ^ e) / 2 ^ t =
      ((m <<< count / n : ℕ) : ℚ) + ((m <<< count % n : ℕ) : ℚ) / n := by
    have whole : ((m <<< count % n : ℕ) : ℚ) + n * ((m <<< count / n : ℕ) : ℚ) =
        (m : ℚ) * 2 ^ count := by
      rw [← Nat.cast_ofNat (n := 2), ← Nat.cast_pow, ← Nat.cast_mul m, ← Nat.shiftLeft_eq]
      exact_mod_cast Nat.mod_add_div _ n
    have power : (2 : ℚ) ^ d = 2 ^ e * 2 ^ t * 2 ^ count := by
      rw [← two_zpow_add, ← zpow_natCast, ← two_zpow_add]
      congr 1
      omega
    have := two_zpow_pos e
    have := two_zpow_pos t
    rw [power]
    field_simp
    linarith
  have keeps := keeps_fraction (m <<< count / n) (Nat.mod_lt (m <<< count) pos')
  rw [← quotient] at keeps
  refine ⟨_, t, _, ?_, keeps, ?_⟩
  · rw [divCore, least, show (d - e - t).toNat = count by omega]
  · have less := keeps.lt_mantissa_add_one
    rw [mantissa_ofMantissaAndAccuracy, div_lt_iff₀ (two_zpow_pos t)] at less
    have great := sub_le_totalExponent pos pos' less
    rw [targetExponent_binary64] at least ⊢
    omega

theorem roundedTo_div (placed : Placed u) (placed' : Placed v) (finite : u.isFinite = true)
    (finite' : v.isFinite = true) (nonzero : rational v ≠ 0) :
    RoundedTo (rational u / rational v) (u.div .binary64 v) := by
  cases v with
  | notANumber => cases finite'
  | infinity s' => cases finite'
  | zero s' => exact absurd rfl nonzero
  | finite s' m' e' pos' =>
      cases u with
      | notANumber => cases finite
      | infinity s => cases finite
      | zero s =>
          rw [rational_zero, zero_div]
          exact roundedTo_zero _
      | finite s m e pos =>
          obtain ⟨q, t, a, found, keeps, le⟩ := divCore_keeps pos pos' e e'
          have quotient : rational (.finite s m e pos) / rational (.finite s' m' e' pos') =
              unit (s / s') * ((m : ℚ) * 2 ^ e / (m' * 2 ^ e')) := by
            rw [div_sign, unit_mul, rational, rational, mul_div_mul_comm]
            congr 1
            cases s' with
            | positive => rw [unit, div_one, mul_one]
            | negative => rw [unit, div_neg, div_one, mul_neg, mul_one]
          rw [quotient]
          simp only [UnpackedFloat.div, found]
          exact roundedTo_roundWithAccuracy _ keeps le

end SpringLayout.Binary64
