import Mathlib.Data.List.FinRange
import SpringLayout.Plane.Viewport
import SpringLayout.Proofs.Plane.Box
import SpringLayout.Proofs.Scalar.Binary64.Same

/-!
The bounding box of any points in binary64, those with NaN coordinates included.

On each axis by itself, the sides of the box are the least and the greatest number among the
coordinates, and they are NaNs where there is no number (`Box.bounds_around?`). So the box depends
on what numbers there are, not on their order, nor on points that have none (`Box.same_around?`); of
two zeros either may become a side, which is why boxes are the same as `Scalar.Same` has it.
Main statement: all of this, and that points in another order are shown at the same places in that
order (`Viewport.box_sees_numbers`).
-/

namespace SpringLayout

/-! ### The least and the greatest number -/

namespace Scalar

section Definitions

variable {α : Type} [Scalar α]

/-- The scalars that are numbers, in order. -/
def numbers (scalars : List α) : List α := scalars.filter fun a => !isNaN a

/-- `low` and `high` are the least and the greatest number among the scalars. -/
structure Bounds (low high : α) (scalars : List α) : Prop where
  spans : numbers scalars ≠ [] → Spans low high (numbers scalars)
  /-- Where there is no number, the bounds are none. -/
  isNaN : numbers scalars = [] → isNaN low = true ∧ isNaN high = true

theorem mem_numbers_iff {a : α} {scalars : List α} :
    a ∈ numbers scalars ↔ a ∈ scalars ∧ Scalar.isNaN a = false := by
  rw [numbers, List.mem_filter, Bool.not_eq_true']

theorem lesser_of_isNaN {a : α} (nan : Scalar.isNaN a = true) (b : α) : lesser a b = b :=
  if_pos nan

theorem greater_of_isNaN {a : α} (nan : Scalar.isNaN a = true) (b : α) : greater a b = b :=
  if_pos nan

end Definitions

open Binary64

variable {a low high low' high' : Float} {scalars scalars' : List Float}

theorem lesser_of_isNaN_right (number : Scalar.isNaN low = false) (nan : Scalar.isNaN a = true) :
    lesser low a = low := by
  have notLess : ¬ a < low := fun less =>
    (lt_iff_rank.mp less).1.1 (isNaN_eq_true_iff.mp nan)
  rw [lesser, number, if_neg Bool.false_ne_true, if_neg notLess]

theorem greater_of_isNaN_right (number : Scalar.isNaN high = false) (nan : Scalar.isNaN a = true) :
    greater high a = high := by
  have notLess : ¬ high < a := fun less =>
    (lt_iff_rank.mp less).1.2 (isNaN_eq_true_iff.mp nan)
  rw [greater, number, if_neg Bool.false_ne_true, if_neg notLess]

theorem numbers_append_of_isNaN (nan : Scalar.isNaN a = true) :
    numbers (scalars ++ [a]) = numbers scalars := by
  simp [numbers, nan]

theorem numbers_append_of_number (number : Scalar.isNaN a = false) :
    numbers (scalars ++ [a]) = numbers scalars ++ [a] := by
  simp [numbers, number]

/-- Before the first scalar there is no number, as if there had been a NaN. -/
theorem Bounds.append_of_none (none : numbers scalars = []) (a : Float) :
    Bounds a a (scalars ++ [a]) := by
  cases nan : Scalar.isNaN a with
  | true =>
      rw [← numbers_append_of_isNaN nan] at none
      exact ⟨fun some => absurd none some, fun _ => ⟨nan, nan⟩⟩
  | false =>
      have only : numbers (scalars ++ [a]) = [a] := by
        rw [numbers_append_of_number nan, none, List.nil_append]
      constructor
      · intro _
        rw [only]
        exact spans_singleton nan
      · intro none
        rw [only] at none
        cases none

theorem bounds_singleton (a : Float) : Bounds a a [a] :=
  Bounds.append_of_none (rfl : numbers [] = []) a

theorem Bounds.append (bounds : Bounds low high scalars) (a : Float) :
    Bounds (lesser low a) (greater high a) (scalars ++ [a]) := by
  by_cases none : numbers scalars = []
  · obtain ⟨nan, nan'⟩ := bounds.isNaN none
    rw [lesser_of_isNaN nan, greater_of_isNaN nan']
    exact .append_of_none none a
  · have spans := bounds.spans none
    have numbered : ∀ b ∈ numbers scalars, Scalar.isNaN b = false := fun b mem =>
      (mem_numbers_iff.mp mem).2
    cases nan : Scalar.isNaN a with
    | true =>
        rw [lesser_of_isNaN_right (numbered low spans.low_mem) nan,
          greater_of_isNaN_right (numbered high spans.high_mem) nan]
        have same : numbers (scalars ++ [a]) = numbers scalars := numbers_append_of_isNaN nan
        exact ⟨fun _ => same ▸ spans, fun none' => absurd (same ▸ none') none⟩
    | false =>
        have more : numbers (scalars ++ [a]) = numbers scalars ++ [a] :=
          numbers_append_of_number nan
        refine ⟨fun _ => more ▸ spans.append numbered nan, fun none' => ?_⟩
        rw [more] at none'
        exact absurd none' (List.append_ne_nil_of_right_ne_nil _ (List.cons_ne_nil a []))

/-- Scalars that hold the same numbers have the same bounds. -/
theorem Bounds.same (bounds : Bounds low high scalars) (bounds' : Bounds low' high' scalars')
    (members : ∀ a, a ∈ numbers scalars ↔ a ∈ numbers scalars') :
    Same low low' ∧ Same high high' := by
  by_cases none : numbers scalars = []
  · have none' : numbers scalars' = [] := by
      rw [List.eq_nil_iff_forall_not_mem] at none ⊢
      exact fun a => mt (members a).mpr (none a)
    obtain ⟨lowNaN, highNaN⟩ := bounds.isNaN none
    obtain ⟨lowNaN', highNaN'⟩ := bounds'.isNaN none'
    exact ⟨.inr ⟨lowNaN, lowNaN'⟩, .inr ⟨highNaN, highNaN'⟩⟩
  · have spans := bounds.spans none
    have spans' := bounds'.spans
      (List.ne_nil_of_mem ((members low).mp spans.low_mem))
    have lowMem := (members low).mp spans.low_mem
    have lowMem' := (members low').mpr spans'.low_mem
    have highMem := (members high).mp spans.high_mem
    have highMem' := (members high').mpr spans'.high_mem
    exact ⟨same_of_le_of_le (spans.low_le low' lowMem') (spans'.low_le low lowMem),
      same_of_le_of_le (spans'.le_high high highMem) (spans.le_high high' highMem')⟩

end Scalar

/-! ### The box -/

section Definitions

variable {α : Type} [Scalar α]

/-- Both coordinates are the same. -/
structure Vec.Same (p q : Vec α) : Prop where
  x : Scalar.Same p.x q.x
  y : Scalar.Same p.y q.y

/-- Neither coordinate is a number. -/
def Vec.IsBlank (p : Vec α) : Prop := Scalar.isNaN p.x = true ∧ Scalar.isNaN p.y = true

namespace Box

/-- The sides of the box are the least and the greatest numbers among the coordinates. -/
structure Bounds (b : Box α) (points : List (Vec α)) : Prop where
  x : Scalar.Bounds b.low.x b.high.x (points.map Vec.x)
  y : Scalar.Bounds b.low.y b.high.y (points.map Vec.y)

/-- All sides are the same. -/
structure Same (b b' : Box α) : Prop where
  low : b.low.Same b'.low
  high : b.high.Same b'.high

end Box

end Definitions

namespace Box

variable {b b' : Box Float} {points points' blanks : List (Vec Float)}

/-- Whatever the coordinates are, the box is that of the numbers among them. -/
theorem bounds_around? (found : around? points = some b) : b.Bounds points := by
  refine around?_induction (motive := fun b points => b.Bounds points) ?_ ?_ found
  · intro p
    exact ⟨Scalar.bounds_singleton p.x, Scalar.bounds_singleton p.y⟩
  · intro b points p bounds
    constructor
    · rw [List.map_append]
      exact bounds.x.append p.x
    · rw [List.map_append]
      exact bounds.y.append p.y

/-- Points without numbers contribute none, wherever they stand. -/
theorem mem_numbers_map_iff {f : Vec Float → Float}
    (blank : ∀ p ∈ blanks, Scalar.isNaN (f p) = true) (rearranged : points'.Perm (blanks ++ points))
    (a : Float) :
    a ∈ Scalar.numbers (points.map f) ↔ a ∈ Scalar.numbers (points'.map f) := by
  rw [Scalar.mem_numbers_iff, Scalar.mem_numbers_iff]
  refine and_congr_left fun number => ?_
  rw [(rearranged.map f).mem_iff, List.map_append, List.mem_append]
  refine (or_iff_right ?_).symm
  intro mem
  obtain ⟨p, listed, rfl⟩ := List.mem_map.mp mem
  rw [blank p listed] at number
  cases number

theorem same_around? (found : around? points = some b) (found' : around? points' = some b')
    (blank : ∀ p ∈ blanks, p.IsBlank) (rearranged : points'.Perm (blanks ++ points)) :
    b.Same b' := by
  have bounds := bounds_around? found
  have bounds' := bounds_around? found'
  obtain ⟨left, right⟩ := bounds.x.same bounds'.x
    (mem_numbers_map_iff (fun p mem => (blank p mem).1) rearranged)
  obtain ⟨top, bottom⟩ := bounds.y.same bounds'.y
    (mem_numbers_map_iff (fun p mem => (blank p mem).2) rearranged)
  exact ⟨⟨left, top⟩, ⟨right, bottom⟩⟩

end Box

/-! ### The frame -/

namespace Axis

variable {low high low' high' start stop : Float}

/-- An axis whose ends are the same shows every coordinate at the same place. -/
theorem same_map_fit (first : Scalar.Same low low') (last : Scalar.Same high high') (x : Float) :
    Scalar.Same ((fit low high start stop).map x) ((fit low' high' start stop).map x) := by
  have extents : Scalar.Same (high - low) (high' - low') := last.sub first
  by_cases stretched : ((0 : Nat) : Float) < high - low ∧ Scalar.isFinite (high - low)
  · -- The scale divides by the extent, which is positive here and so the very same number.
    have extent : high - low = high' - low' := extents.eq_of_pos stretched.1
    have stretched' := stretched
    rw [extent] at stretched'
    rw [fit, fit, map, map, if_pos stretched, if_pos stretched', extent]
    exact (Scalar.Same.refl start).add (((Scalar.Same.refl x).sub first).mul_right _)
  · have flat : ¬ (((0 : Nat) : Float) < high' - low' ∧ Scalar.isFinite (high' - low')) := by
      intro stretched'
      rw [extents.symm.eq_of_pos stretched'.1] at stretched'
      exact stretched stretched'
    rw [fit, fit, map, map, if_neg stretched, if_neg flat]
    exact .refl _

end Axis

theorem Viewport.same_place (v : Viewport Float) {b b' : Box Float} (same : b.Same b')
    (p : Vec Float) : (v.place b p).Same (v.place b' p) :=
  ⟨Axis.same_map_fit same.low.x same.high.x p.x, Axis.same_map_fit same.low.y same.high.y p.y⟩

/-- The items in another order: the one at place `σ i` comes to place `i`. -/
def rearrange {β : Type} (items : Array β) (σ : Equiv.Perm (Fin items.size)) : Array β :=
  Array.ofFn fun i => items[σ i]

@[simp] theorem size_rearrange {β : Type} (items : Array β) (σ : Equiv.Perm (Fin items.size)) :
    (rearrange items σ).size = items.size := Array.size_ofFn

theorem rearrange_perm {β : Type} (items : Array β) (σ : Equiv.Perm (Fin items.size)) :
    (rearrange items σ).toList.Perm items.toList := by
  have listed : items.toList = List.ofFn fun i : Fin items.size => items[i] := by
    rw [← Array.toList_ofFn]
    exact congrArg Array.toList Array.ofFn_getElem.symm
  rw [rearrange, Array.toList_ofFn, listed]
  exact σ.ofFn_comp_perm fun i => items[i]

theorem getElem?_rearrange {β : Type} (items : Array β) (σ : Equiv.Perm (Fin items.size))
    (i : Fin items.size) : (rearrange items σ)[i.val]? = some items[σ i] := by
  rw [rearrange, Array.getElem?_ofFn, dif_pos i.isLt]

/-- What is known of the box of some points, whatever their coordinates are. -/
structure Box.Law (points : List (Vec Float)) : Prop where
  none_iff : around? points = none ↔ points = []
  bounds : ∀ b, around? points = some b → b.Bounds points
  /-- Neither the order of the points nor further points without numbers make a difference. -/
  rearranged : points ≠ [] → ∀ blanks points', (∀ p ∈ blanks, p.IsBlank) →
    points'.Perm (blanks ++ points) →
    ∃ b b', around? points = some b ∧ around? points' = some b' ∧ b.Same b'

theorem Box.law_of_any (points : List (Vec Float)) : Law points where
  none_iff := around?_eq_none_iff
  bounds _ found := bounds_around? found
  rearranged := by
    intro some blanks points' blank rearranged
    obtain ⟨b, found⟩ := exists_around? some
    have some' : points' ≠ [] := by
      rintro rfl
      exact some (List.append_eq_nil_iff.mp rearranged.nil_eq.symm).2
    obtain ⟨b', found'⟩ := exists_around? some'
    exact ⟨b, b', found, found', same_around? found found' blank rearranged⟩

namespace Viewport

/-- The points in another order are shown in that order, at the same places. -/
theorem normalize_rearrange (v : Viewport Float) (points : Array (Vec Float))
    (σ : Equiv.Perm (Fin points.size)) (i : Fin points.size) :
    ∃ p q, (v.normalize points)[(σ i).val]? = some p ∧
      (v.normalize (rearrange points σ))[i.val]? = some q ∧ p.Same q := by
  have some : points.toList ≠ [] := List.ne_nil_of_length_pos i.pos
  obtain ⟨b, b', found, found', same⟩ := (Box.law_of_any points.toList).rearranged some []
    (rearrange points σ).toList (List.forall_mem_nil _) (rearrange_perm points σ)
  refine ⟨v.place b points[σ i], v.place b' points[σ i], ?_, ?_, same_place v same _⟩
  · rw [normalize_eq found, Array.getElem?_map, Array.getElem?_eq_getElem (σ i).isLt]
    rfl
  · rw [normalize_eq found', Array.getElem?_map, getElem?_rearrange]
    rfl

/-- The box of any points sees the numbers among their coordinates and nothing else, and what
is shown of the points does not depend on their order. -/
theorem box_sees_numbers (points : Array (Vec Float)) :
    Box.Law points.toList ∧
      ∀ (v : Viewport Float) (σ : Equiv.Perm (Fin points.size)),
        (v.normalize (rearrange points σ)).size = (v.normalize points).size ∧
          ∀ i : Fin points.size, ∃ p q, (v.normalize points)[(σ i).val]? = some p ∧
            (v.normalize (rearrange points σ))[i.val]? = some q ∧ p.Same q :=
  ⟨Box.law_of_any points.toList, fun v σ => ⟨by simp, normalize_rearrange v points σ⟩⟩

/-- A point without a number in its first place, zeros of both signs and an infinite coordinate. -/
def hollow : Array (Vec Float) := #[⟨0 / 0, 1⟩, ⟨-0, 0 / 0⟩, ⟨0, 1 / 0⟩]

/-- The box of these points stays when the others change places behind a blank point. -/
theorem box_sees_numbers_hollow :
    hollow.toList ≠ [] ∧ ∃ b b', Box.around? hollow.toList = some b ∧
      Box.around? [⟨0 / 0, 1⟩, ⟨0 / 0, 0 / 0⟩, ⟨0, 1 / 0⟩, ⟨-0, 0 / 0⟩] = some b' ∧ b.Same b' := by
  have some : hollow.toList ≠ [] := List.cons_ne_nil _ _
  have blank : ∀ p ∈ [(⟨0 / 0, 0 / 0⟩ : Vec Float)], p.IsBlank := by
    intro p mem
    rw [List.mem_singleton.mp mem]
    exact ⟨by decide +kernel, by decide +kernel⟩
  have rearranged := (List.Perm.swap (⟨0 / 0, 0 / 0⟩ : Vec Float) ⟨0 / 0, 1⟩
    [⟨0, 1 / 0⟩, ⟨-0, 0 / 0⟩]).trans (((List.Perm.swap _ _ []).cons _).cons _)
  exact ⟨some, (box_sees_numbers hollow).1.rearranged some _ _ blank rearranged⟩

end Viewport

end SpringLayout
