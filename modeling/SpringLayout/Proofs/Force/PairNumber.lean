import Mathlib.Algebra.Ring.Parity
import Mathlib.Data.Nat.Choose.Basic
import Mathlib.Data.Set.Function
import Mathlib.Data.Sym.Sym2
import SpringLayout.Proofs.Force.Orientation

/-!
The numbers of unordered pairs of vertices.

Two vertices that coincide are pushed apart in a direction made up from the number of their pair.
Pairs are numbered by the greater vertex first: before those of vertex `hi` come the
`hi * (hi - 1) / 2` pairs of smaller vertices. The number is computed in words of 64 bits;
`CountsInWords` says that none of these wraps and that nothing is lost by halving.

Main statement: `pairs_numbered`, for up to `2³²` vertices. Every pair gets its number, whichever
vertex is named first, and every number below the count of the pairs is that of one pair only.
-/

namespace SpringLayout

/-! ### Triangular numbers -/

/-- How many unordered pairs there are of `n` vertices. -/
def pairCount (n : ℕ) : ℕ := n * (n - 1) / 2

theorem pairCount_succ (n : ℕ) : pairCount (n + 1) = pairCount n + n := Nat.triangle_succ n

theorem pairCount_mono {m n : ℕ} (le : m ≤ n) : pairCount m ≤ pairCount n :=
  Nat.div_le_div_right (Nat.mul_le_mul le (Nat.sub_le_sub_right le 1))

theorem pairCount_mul_two (n : ℕ) : pairCount n * 2 = n * (n - 1) :=
  Nat.div_mul_cancel (even_iff_two_dvd.mp (Nat.even_mul_pred_self n))

/-- The pairs of one vertex with smaller ones come before all pairs of a greater vertex. -/
theorem pairCount_add_lt {lo hi n : ℕ} (less : lo < hi) (below : hi < n) :
    pairCount hi + lo < pairCount n :=
  calc pairCount hi + lo
      < pairCount hi + hi := Nat.add_lt_add_left less _
    _ = pairCount (hi + 1) := (pairCount_succ hi).symm
    _ ≤ pairCount n := pairCount_mono below

/-- The number tells the greater vertex, and the rest of it the smaller one. -/
theorem pairCount_add_injective {lo hi lo' hi' : ℕ} (less : lo < hi) (less' : lo' < hi')
    (same : pairCount hi + lo = pairCount hi' + lo') : lo = lo' ∧ hi = hi' := by
  rcases Nat.lt_trichotomy hi hi' with before | rfl | after
  · have := pairCount_add_lt less before
    omega
  · exact ⟨Nat.add_left_cancel same, rfl⟩
  · have := pairCount_add_lt less' after
    omega

/-- The last vertex takes the numbers from the pairs of the others on. -/
theorem exists_pairCount_add {n k : ℕ} (bound : k < pairCount n) :
    ∃ lo hi, lo < hi ∧ hi < n ∧ pairCount hi + lo = k := by
  induction n with
  | zero => exact absurd bound (Nat.not_lt_zero k)
  | succ n ih =>
      rw [pairCount_succ] at bound
      rcases Nat.lt_or_ge k (pairCount n) with early | late
      · obtain ⟨lo, hi, less, below, eq⟩ := ih early
        exact ⟨lo, hi, less, below.trans n.lt_succ_self, eq⟩
      · exact ⟨k - pairCount n, n, by omega, n.lt_succ_self, by omega⟩

/-! ### In words of 64 bits -/

/-- Nothing is lost in computing the number of a pair: no word wraps, and the halved product is
even. -/
structure CountsInWords (lo hi : ℕ) : Prop where
  one_le : 1 ≤ hi.toUInt64
  pred : (hi.toUInt64 - 1).toNat = hi - 1
  product : (hi.toUInt64 * (hi.toUInt64 - 1)).toNat = hi * (hi - 1)
  half : (hi.toUInt64 * (hi.toUInt64 - 1) / 2).toNat * 2 = hi * (hi - 1)
  number : (hi.toUInt64 * (hi.toUInt64 - 1) / 2 + lo.toUInt64).toNat = hi * (hi - 1) / 2 + lo

theorem countsInWords {lo hi : ℕ} (less : lo < hi) (small : hi < 2 ^ 32) :
    CountsInWords lo hi := by
  have first : lo.toUInt64.toNat = lo := Nat.mod_eq_of_lt (by omega)
  have second : hi.toUInt64.toNat = hi := Nat.mod_eq_of_lt (by omega)
  have one_le : 1 ≤ hi.toUInt64 := by
    rw [UInt64.le_iff_toNat_le, second]
    exact Nat.one_le_of_lt less
  have pred : (hi.toUInt64 - 1).toNat = hi - 1 := by
    rw [UInt64.toNat_sub_of_le _ _ one_le, second]
    rfl
  -- The product nearly fills the word: the greatest is (2³² - 1) (2³² - 2).
  have room : hi * (hi - 1) < 2 ^ 64 :=
    calc hi * (hi - 1)
        ≤ (2 ^ 32 - 1) * (2 ^ 32 - 2) := Nat.mul_le_mul (by omega) (by omega)
      _ < 2 ^ 64 := by decide
  have product : (hi.toUInt64 * (hi.toUInt64 - 1)).toNat = hi * (hi - 1) := by
    rw [UInt64.toNat_mul, second, pred, Nat.mod_eq_of_lt room]
  have half : (hi.toUInt64 * (hi.toUInt64 - 1) / 2).toNat = pairCount hi := by
    rw [UInt64.toNat_div, product]
    rfl
  have twice := pairCount_mul_two hi
  refine ⟨one_le, pred, product, half ▸ twice, ?_⟩
  rw [UInt64.toNat_add, half, first, Nat.mod_eq_of_lt (by omega)]
  rfl

theorem pairNumber_of_lt {i j : Nat} (less : i < j) (bound : j < 2 ^ 64) :
    pairNumber i.toUInt64 j.toUInt64 = j.toUInt64 * (j.toUInt64 - 1) / 2 + i.toUInt64 ∧
      1 ≤ j.toUInt64 := by
  have first : i.toUInt64.toNat = i := Nat.mod_eq_of_lt (less.trans bound)
  have second : j.toUInt64.toNat = j := Nat.mod_eq_of_lt bound
  constructor
  · have ordered : i.toUInt64 < j.toUInt64 := by
      rw [UInt64.lt_iff_toNat_lt, first, second]
      exact less
    rw [pairNumber, if_pos ordered]
  · rw [UInt64.le_iff_toNat_le, second]
    exact Nat.one_le_of_lt less

theorem toNat_pairNumber {lo hi : ℕ} (less : lo < hi) (small : hi < 2 ^ 32) :
    (pairNumber lo.toUInt64 hi.toUInt64).toNat = pairCount hi + lo := by
  rw [(pairNumber_of_lt less (by omega)).1]
  exact (countsInWords less small).number

/-! ### Unordered pairs -/

/-- The number of an unordered pair, as it is computed. -/
def numberOfPair : Sym2 ℕ → ℕ :=
  Sym2.lift ⟨fun i j => (pairNumber i.toUInt64 j.toUInt64).toNat,
    fun i j => congrArg UInt64.toNat (pairNumber_comm i.toUInt64 j.toUInt64)⟩

/-- The unordered pairs of two different ones of the first `n` vertices. -/
def pairsBefore (n : ℕ) : Set (Sym2 ℕ) := {p | ¬ p.IsDiag ∧ ∀ v ∈ p, v < n}

theorem mem_pairsBefore_iff {n : ℕ} {p : Sym2 ℕ} :
    p ∈ pairsBefore n ↔ ∃ lo hi, lo < hi ∧ hi < n ∧ p = s(lo, hi) := by
  constructor
  · induction p with
    | h i j =>
        rintro ⟨apart, below⟩
        rcases lt_or_gt_of_ne (mt Sym2.mk_isDiag_iff.mpr apart) with less | more
        · exact ⟨i, j, less, below j (Sym2.mem_mk_right i j), rfl⟩
        · exact ⟨j, i, more, below i (Sym2.mem_mk_left i j), Sym2.eq_swap⟩
  · rintro ⟨lo, hi, less, below, rfl⟩
    refine ⟨mt Sym2.mk_isDiag_iff.mp less.ne, fun v listed => ?_⟩
    rcases Sym2.mem_iff.mp listed with rfl | rfl
    · exact less.trans below
    · exact below

/-- The pairs of the first `n` vertices are numbered without gaps, and no two of them alike. -/
theorem bijOn_numberOfPair {n : ℕ} (few : n ≤ 2 ^ 32) :
    Set.BijOn numberOfPair (pairsBefore n) (Set.Iio (pairCount n)) := by
  have numbered {lo hi : ℕ} (less : lo < hi) (below : hi < n) :
      numberOfPair s(lo, hi) = pairCount hi + lo := toNat_pairNumber less (below.trans_le few)
  refine ⟨fun p listed => ?_, fun p listed q other same => ?_, fun k bound => ?_⟩
  · obtain ⟨lo, hi, less, below, rfl⟩ := mem_pairsBefore_iff.mp listed
    rw [numbered less below]
    exact pairCount_add_lt less below
  · obtain ⟨lo, hi, less, below, rfl⟩ := mem_pairsBefore_iff.mp listed
    obtain ⟨lo', hi', less', below', rfl⟩ := mem_pairsBefore_iff.mp other
    rw [numbered less below, numbered less' below'] at same
    obtain ⟨rfl, rfl⟩ := pairCount_add_injective less less' same
    rfl
  · obtain ⟨lo, hi, less, below, eq⟩ := exists_pairCount_add bound
    exact ⟨s(lo, hi), mem_pairsBefore_iff.mpr ⟨lo, hi, less, below, rfl⟩,
      (numbered less below).trans eq⟩

/-! ### The numbering as a whole -/

theorem pairNumber_min_max (i j : ℕ) :
    pairNumber i.toUInt64 j.toUInt64 = pairNumber (min i j).toUInt64 (max i j).toUInt64 := by
  rcases le_total i j with le | ge
  · rw [min_eq_left le, max_eq_right le]
  · rw [min_eq_right ge, max_eq_left ge, pairNumber_comm]

/-- How the pairs of `n` vertices are numbered. -/
structure PairsNumbered (n : ℕ) : Prop where
  computed : ∀ i < n, ∀ j < n, i ≠ j →
    let lo := (min i j).toUInt64
    let hi := (max i j).toUInt64
    pairNumber i.toUInt64 j.toUInt64 = hi * (hi - 1) / 2 + lo
  /-- No word wraps on the way to a number, and none is rounded. -/
  counts : ∀ i < n, ∀ j < n, i ≠ j → CountsInWords (min i j) (max i j)
  number : ∀ i < n, ∀ j < n, i ≠ j →
    let lo := min i j
    let hi := max i j
    (pairNumber i.toUInt64 j.toUInt64).toNat = hi * (hi - 1) / 2 + lo
  comm : ∀ i j, pairNumber i j = pairNumber j i
  bijOn : Set.BijOn numberOfPair (pairsBefore n) (Set.Iio (n * (n - 1) / 2))
  /-- Where two vertices coincide, the number of their pair is what their direction hangs on. -/
  direction : ∀ {α : Type} [PolarScalar α], ∀ i < n, ∀ j < n, i ≠ j →
    let lo := min i j
    let hi := max i j
    let turned : Vec α :=
      Vec.ofAngle (Scalar.goldenAngle * ((hi * (hi - 1) / 2 + lo : ℕ) : α))
    Separation.tieBreak i j = if i < j then turned else -turned

/-- Of up to `2³²` vertices, every unordered pair has its triangular number, and no two pairs have
the same. -/
theorem pairs_numbered (n : ℕ) (few : n ≤ 2 ^ 32) : PairsNumbered n := by
  have less {i j : ℕ} (apart : i ≠ j) : min i j < max i j := min_lt_max.mpr apart
  have small {i j : ℕ} (first : i < n) (second : j < n) : max i j < 2 ^ 32 :=
    (max_lt first second).trans_le few
  have number {i j : ℕ} (first : i < n) (second : j < n) (apart : i ≠ j) :
      (pairNumber i.toUInt64 j.toUInt64).toNat = pairCount (max i j) + min i j := by
    rw [pairNumber_min_max]
    exact toNat_pairNumber (less apart) (small first second)
  exact {
    computed := fun i first j second apart => by
      rw [pairNumber_min_max]
      exact (pairNumber_of_lt (less apart) ((small first second).trans (by decide))).1
    counts := fun i first j second apart => countsInWords (less apart) (small first second)
    number := fun i first j second apart => number first second apart
    comm := pairNumber_comm
    bijOn := bijOn_numberOfPair few
    direction := fun i first j second apart => by
      rw [Separation.tieBreak, number first second apart]
      rfl }

/-- The last pair of the most vertices has the greatest number, and the product behind it nearly
fills a word. -/
theorem pairs_numbered_last :
    2 ^ 32 ≤ 2 ^ 32 ∧ PairsNumbered (2 ^ 32) ∧
      (4294967295 * (4294967295 - 1) : UInt64).toNat = 18446744060824649730 ∧
      (pairNumber 4294967295 4294967294).toNat = 9223372034707292159 :=
  ⟨Nat.le_refl _, pairs_numbered _ (Nat.le_refl _), by decide, by decide⟩

end SpringLayout
