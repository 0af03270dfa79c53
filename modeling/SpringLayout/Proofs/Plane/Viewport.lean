import SpringLayout.Plane.Viewport
import SpringLayout.Proofs.Plane.Box
import SpringLayout.Proofs.Scalar.Binary64.Exact

/-!
Frames that are shown in binary64.

The guard of an axis looks at its extent only. That suffices against extents of zero and against
infinite ones, but a tiny extent has a scale past all numbers, which no offset can make up for: the
least coordinate has none, and nothing times infinity is a NaN (`Axis.map_low_of_overflows`). Where
the scale is a number, though, scale and offset make up for each other, since no offset is greater
than the extent that the scale divides by (`Axis.isFinite_map`).

Main statement: a frame of finite points is finite on a viewport of moderate size exactly if
neither axis overflows (`Viewport.isFinite_normalize_iff`).
-/

namespace SpringLayout

open Binary64

/-- The scalar is at most a million, either way. -/
def Binary64.Moderate (a : Float) : Prop :=
  Scalar.isFinite a = true ∧ -((1000000 : Nat) : Float) ≤ a ∧ a ≤ ((1000000 : Nat) : Float)

instance (a : Float) : Decidable (Moderate a) := inferInstanceAs (Decidable (_ ∧ _ ∧ _))

theorem Binary64.Moderate.abs_exact_le {a : Float} (moderate : Moderate a) :
    |exact a| ≤ 2 ^ (20 : ℤ) := by
  obtain ⟨finite, low, high⟩ := moderate
  have least : exact (-((1000000 : Nat) : Float)) = -1000000 := by decide +kernel
  have greatest : exact ((1000000 : Nat) : Float) = 1000000 := by decide +kernel
  rw [le_iff_exact (by decide +kernel) finite, least] at low
  rw [le_iff_exact finite (by decide +kernel), greatest] at high
  rw [abs_le]
  constructor
  · norm_num
    linarith
  · norm_num
    linarith

open Float.Model (UnpackedFloat) in
open Float.Model.UnpackedFloat in
/-- Nothing times infinity is a NaN. -/
theorem Binary64.value_sub_self_mul {a b : Float} (finite : Scalar.isFinite a = true)
    (infinite : Scalar.isFinite b = false) : value ((a - a) * b) = .notANumber := by
  have none : (value a).sub .binary64 (value a) = .zero .positive := by
    rw [isFinite_eq] at finite
    cases taken : value a with
    | zero s => cases s with
      | _ => rfl
    | finite s m e pos =>
        simp only [UnpackedFloat.sub, Int.sub_self]
        rfl
    | _ =>
        rw [taken] at finite
        cases finite
  have product : (UnpackedFloat.zero .positive).mul .binary64 (value b) = .notANumber := by
    rw [isFinite_eq] at infinite
    cases taken : value b with
    | notANumber => rfl
    | infinity s => rfl
    | _ =>
        rw [taken] at infinite
        cases infinite
  have vanished : value (a - a) = .zero .positive := by
    rw [value_sub, none]
    exact unpack_packedZero
  rw [value_mul, vanished, product]
  exact unpack_packedNaN

/-! ### One axis -/

namespace Axis

/-- The axis has a scale, but one that is past all numbers. -/
def Overflows (a : Axis Float) : Prop := ∃ s, a.scale = some s ∧ Scalar.isFinite s = false

variable {low high start stop coordinate : Float}

section Sides

variable (first : Moderate start) (last : Moderate stop)
include first last

theorem isFinite_midpoint : Scalar.isFinite (Scalar.midpoint start stop) = true := by
  have two : exact ((2 : Nat) : Float) = 2 := by decide +kernel
  have sum := abs_add_le_two_zpow first.abs_exact_le last.abs_exact_le
  obtain ⟨finite, bound⟩ := (isRounded_add first.1 last.1).abs_le (by norm_num) (by norm_num) sum
  have half : |exact (start + stop) / exact ((2 : Nat) : Float)| ≤ 2 ^ ((20 : ℤ) + 1) := by
    rw [two, abs_div, abs_two]
    exact (half_le_self (abs_nonneg _)).trans bound
  have nonzero : exact ((2 : Nat) : Float) ≠ 0 := two ▸ two_ne_zero
  have middle := isRounded_div finite (by decide +kernel) nonzero
  exact (middle.abs_le (by norm_num) (by norm_num) half).1

/-- The display's extent is moderate too. -/
theorem abs_exact_sub_le :
    Scalar.isFinite (stop - start) = true ∧ |exact (stop - start)| ≤ 2 ^ (21 : ℤ) := by
  have difference := abs_sub_le_two_zpow last.abs_exact_le first.abs_exact_le
  exact (isRounded_sub last.1 first.1).abs_le (by norm_num) (by norm_num) difference

end Sides

/-- No offset is greater than the extent. -/
theorem abs_exact_offset_le (finite : Scalar.isFinite low = true)
    (finite' : Scalar.isFinite high = true) (finite'' : Scalar.isFinite coordinate = true)
    (above : low ≤ coordinate) (below : coordinate ≤ high)
    (extent : Scalar.isFinite (high - low) = true) :
    Scalar.isFinite (coordinate - low) = true ∧
      |exact (coordinate - low)| ≤ |exact (high - low)| := by
  have offset := isRounded_sub finite'' finite
  have whole := isRounded_sub finite' finite
  have least := (le_iff_exact finite finite'').mp above
  have greatest := (le_iff_exact finite'' finite').mp below
  have within : |exact coordinate - exact low| ≤ |exact high - exact low| := by
    rw [abs_of_nonneg (by linarith), abs_of_nonneg (by linarith)]
    linarith
  have number := offset.isFinite_of_abs_le whole within extent
  exact ⟨number, (offset.rounds number).abs.mono (whole.rounds extent).abs within⟩

/-- What the scale has too much, every offset has too little. -/
theorem abs_mul_le_of_scale {w e offset : Float} (finite : Scalar.isFinite w = true)
    (finite' : Scalar.isFinite e = true) (pos : 0 < exact e)
    (number : Scalar.isFinite (w / e) = true) (width : |exact w| ≤ 2 ^ (21 : ℤ))
    (within : |exact offset| ≤ |exact e|) :
    |exact offset * exact (w / e)| ≤ 2 ^ (22 : ℤ) := by
  obtain ⟨j, low, high⟩ := exists_mem_Ico_zpow pos one_lt_two
  have places : j < 1024 := by
    rw [← two_zpow_lt_iff]
    exact low.trans_lt ((le_abs_self _).trans_lt (abs_exact_lt e))
  have quotient : |exact w / exact e| ≤ 2 ^ (21 - j) := by
    rw [abs_div, abs_of_pos pos, div_le_iff₀ pos]
    calc |exact w| ≤ 2 ^ (21 : ℤ) := width
      _ = 2 ^ (21 - j) * 2 ^ j := by rw [← two_zpow_add, sub_add_cancel]
      _ ≤ 2 ^ (21 - j) * exact e := by gcongr
  have rounds := (isRounded_div finite finite' pos.ne').rounds number
  have scale := rounds.abs_le_two_zpow (by omega) quotient
  rw [abs_of_pos pos] at within
  rw [abs_mul]
  calc |exact offset| * |exact (w / e)| ≤ 2 ^ (j + 1) * 2 ^ (21 - j) := by
        gcongr
        exact within.trans high.le
    _ = 2 ^ (22 : ℤ) := by
      rw [← two_zpow_add]
      congr 1
      omega

theorem scale_fit_eq_some_iff {s : Float} :
    (fit low high start stop).scale = some s ↔
      ((0 : Nat) : Float) < high - low ∧ Scalar.isFinite (high - low) = true ∧
        (stop - start) / (high - low) = s := by
  by_cases stretched : ((0 : Nat) : Float) < high - low ∧ Scalar.isFinite (high - low)
  · have scale : (fit low high start stop).scale = some ((stop - start) / (high - low)) :=
      if_pos stretched
    rw [scale, Option.some_inj, ← and_assoc]
    exact (and_iff_right stretched).symm
  · have scale : (fit low high start stop).scale = none := if_neg stretched
    rw [scale, ← and_assoc]
    exact iff_of_false (Option.some_ne_none s).symm fun found => stretched found.1

variable (finite : Scalar.isFinite low = true) (finite' : Scalar.isFinite high = true)
  (first : Moderate start) (last : Moderate stop)
include finite finite' first last

/-- An axis that does not overflow shows every coordinate within its reach. -/
theorem isFinite_map (finite'' : Scalar.isFinite coordinate = true) (above : low ≤ coordinate)
    (below : coordinate ≤ high) (holds : ¬ (fit low high start stop).Overflows) :
    Scalar.isFinite ((fit low high start stop).map coordinate) = true := by
  cases scale : (fit low high start stop).scale with
  | none =>
      rw [map, scale]
      exact isFinite_midpoint first last
  | some s =>
      have number : Scalar.isFinite s = true := by
        by_contra infinite
        exact holds ⟨s, scale, Bool.not_eq_true _ ▸ infinite⟩
      rw [map, scale]
      obtain ⟨less, extent, rfl⟩ := scale_fit_eq_some_iff.mp scale
      have pos : 0 < exact (high - low) := (lt_iff_exact rfl extent).mp less
      obtain ⟨width, most⟩ := abs_exact_sub_le first last
      obtain ⟨offset, within⟩ := abs_exact_offset_le finite finite' finite'' above below extent
      have product := abs_mul_le_of_scale width extent pos number most within
      obtain ⟨stretched, reach⟩ := (isRounded_mul offset number).abs_le (by norm_num) (by norm_num)
        product
      have start_le : |exact start| ≤ 2 ^ (22 : ℤ) :=
        first.abs_exact_le.trans (two_zpow_le (by norm_num))
      have sum := abs_add_le_two_zpow start_le reach
      exact ((isRounded_add first.1 stretched).abs_le (by norm_num) (by norm_num) sum).1

omit finite finite' in
theorem isFinite_map_of_spans {scalars : List Float} (spans : Scalar.Spans low high scalars)
    (numbers : ∀ a ∈ scalars, Scalar.isFinite a = true) (mem : coordinate ∈ scalars)
    (holds : ¬ (fit low high start stop).Overflows) :
    Scalar.isFinite ((fit low high start stop).map coordinate) = true :=
  isFinite_map (numbers low spans.low_mem) (numbers high spans.high_mem) first last
    (numbers coordinate mem) (spans.low_le coordinate mem) (spans.le_high coordinate mem) holds

omit finite' first last in
/-- An axis that overflows has nowhere to show its least coordinate. -/
theorem map_low_of_overflows (overflows : (fit low high start stop).Overflows) :
    Scalar.isFinite ((fit low high start stop).map low) = false := by
  obtain ⟨s, scale, infinite⟩ := overflows
  have nan : value (start + (low - low) * s) = .notANumber := by
    rw [value_add, value_sub_self_mul finite infinite, add_notANumber]
    exact Float.Model.UnpackedFloat.unpack_packedNaN
  rw [map, scale, isFinite_eq]
  exact congrArg Float.Model.UnpackedFloat.isFinite nan

end Axis

/-! ### The frame -/

namespace Viewport

/-- All sides are moderate numbers. -/
structure Moderate (v : Viewport Float) : Prop where
  left : Binary64.Moderate v.left
  top : Binary64.Moderate v.top
  right : Binary64.Moderate v.right
  bottom : Binary64.Moderate v.bottom

/-- The map of the first coordinates when `box` is to fill the viewport. -/
def xAxis (v : Viewport Float) (box : Box Float) : Axis Float :=
  Axis.fit box.low.x box.high.x v.left v.right

/-- The map of the second coordinates when `box` is to fill the viewport. -/
def yAxis (v : Viewport Float) (box : Box Float) : Axis Float :=
  Axis.fit box.low.y box.high.y v.top v.bottom

theorem isFinite_iff {p : Vec Float} :
    p.isFinite = true ↔ Scalar.isFinite p.x = true ∧ Scalar.isFinite p.y = true :=
  Bool.and_eq_true_iff

theorem isNumber_of_isFinite {p : Vec Float} (finite : p.isFinite = true) : p.IsNumber := by
  rw [isFinite_iff] at finite
  exact ⟨isNaN_eq_false_iff.mpr (ne_notANumber_of_isFinite finite.1),
    isNaN_eq_false_iff.mpr (ne_notANumber_of_isFinite finite.2)⟩

section Frame

variable {v : Viewport Float} {points : Array (Vec Float)} {box : Box Float}

theorem isFinite_coordinates (finite : ∀ p ∈ points, p.isFinite = true) :
    (∀ a ∈ points.toList.map Vec.x, Scalar.isFinite a = true) ∧
      ∀ a ∈ points.toList.map Vec.y, Scalar.isFinite a = true := by
  rw [List.forall_mem_map, List.forall_mem_map]
  constructor
  · intro p listed
    exact (isFinite_iff.mp (finite p (Array.mem_toList_iff.mp listed))).1
  · intro p listed
    exact (isFinite_iff.mp (finite p (Array.mem_toList_iff.mp listed))).2

variable (moderate : v.Moderate) (spans : box.Spans points.toList)
  (finite : ∀ p ∈ points, p.isFinite = true)
include moderate spans finite

theorem isFinite_place (holds : ¬ (v.xAxis box).Overflows) (holds' : ¬ (v.yAxis box).Overflows)
    {p : Vec Float} (mem : p ∈ points) : (v.place box p).isFinite = true := by
  obtain ⟨xs, ys⟩ := isFinite_coordinates finite
  have listed := Array.mem_toList_iff.mpr mem
  rw [isFinite_iff]
  constructor
  · exact Axis.isFinite_map_of_spans moderate.left moderate.right spans.x xs
      (List.mem_map_of_mem listed) holds
  · exact Axis.isFinite_map_of_spans moderate.top moderate.bottom spans.y ys
      (List.mem_map_of_mem listed) holds'

omit moderate in
theorem exists_place_of_overflows (overflows : (v.xAxis box).Overflows ∨ (v.yAxis box).Overflows) :
    ∃ p ∈ points, (v.place box p).isFinite = false := by
  obtain ⟨xs, ys⟩ := isFinite_coordinates finite
  rcases overflows with overflows | overflows
  · obtain ⟨p, listed, low⟩ := List.mem_map.mp spans.x.low_mem
    have nowhere := Axis.map_low_of_overflows (xs _ spans.x.low_mem) overflows
    refine ⟨p, Array.mem_toList_iff.mp listed, ?_⟩
    rw [Vec.isFinite, place, low, nowhere, Bool.false_and]
  · obtain ⟨p, listed, low⟩ := List.mem_map.mp spans.y.low_mem
    have nowhere := Axis.map_low_of_overflows (ys _ spans.y.low_mem) overflows
    refine ⟨p, Array.mem_toList_iff.mp listed, ?_⟩
    rw [Vec.isFinite, place, low, nowhere, Bool.and_false]

end Frame

section Main

variable {v : Viewport Float} {points : Array (Vec Float)}

theorem spans_of_isFinite {box : Box Float} (finite : ∀ p ∈ points, p.isFinite = true)
    (found : Box.around? points.toList = some box) : box.Spans points.toList :=
  Box.spans_around? found fun p listed =>
    isNumber_of_isFinite (finite p (Array.mem_toList_iff.mp listed))

/-- Finite points are all shown at finite places exactly if neither axis overflows. -/
theorem isFinite_normalize_iff (moderate : v.Moderate) (some : points ≠ #[])
    (finite : ∀ p ∈ points, p.isFinite = true) :
    ∃ box, Box.around? points.toList = .some box ∧
      ((∀ p ∈ v.normalize points, p.isFinite = true) ↔
        ¬ (v.xAxis box).Overflows ∧ ¬ (v.yAxis box).Overflows) := by
  obtain ⟨box, found⟩ := Option.ne_none_iff_exists'.mp
    (mt Box.around?_eq_none_iff.mp (mt Array.toList_eq_nil_iff.mp some))
  have spans := spans_of_isFinite finite found
  refine ⟨box, found, ?_⟩
  rw [normalize_eq found, Array.forall_mem_map]
  constructor
  · intro shown
    by_contra overflows
    rw [← not_or, not_not] at overflows
    obtain ⟨p, mem, nowhere⟩ := exists_place_of_overflows spans finite overflows
    rw [shown p mem] at nowhere
    cases nowhere
  · rintro ⟨holds, holds'⟩ p mem
    exact isFinite_place moderate spans finite holds holds' mem

theorem moderate_standard : (standard : Viewport Float).Moderate :=
  ⟨by decide +kernel, by decide +kernel, by decide +kernel, by decide +kernel⟩

/-- Three corners of a rectangle. -/
def corners : Array (Vec Float) := #[⟨0, 0⟩, ⟨3, 0⟩, ⟨0, 4⟩]

theorem isFinite_normalize_iff_corners :
    corners ≠ #[] ∧ (∀ p ∈ corners, p.isFinite = true) ∧
      ∃ box, Box.around? corners.toList = .some box ∧
        ((∀ p ∈ standard.normalize corners, p.isFinite = true) ↔
          ¬ (standard.xAxis box).Overflows ∧ ¬ (standard.yAxis box).Overflows) :=
  ⟨by decide, by decide +kernel,
    isFinite_normalize_iff moderate_standard (by decide) (by decide +kernel)⟩

/-- Two points that differ by the least number there is. -/
def sliver : Array (Vec Float) := #[⟨0, 0⟩, ⟨5e-324, 1⟩]

/-- They are finite, and none of them is shown at a finite place. -/
theorem normalize_sliver :
    (standard : Viewport Float).Moderate ∧ sliver ≠ #[] ∧ (∀ p ∈ sliver, p.isFinite = true) ∧
      ∀ p ∈ standard.normalize sliver, p.isFinite = false :=
  ⟨moderate_standard, by decide, by decide +kernel, by decide +kernel⟩

end Main

end Viewport

end SpringLayout
