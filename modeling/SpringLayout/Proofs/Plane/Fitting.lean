import Mathlib.Tactic.Linarith
import Mathlib.Tactic.Ring
import SpringLayout.Plane.Viewport
import SpringLayout.Proofs.Plane.Box
import SpringLayout.Proofs.Scalar.Rational

/-!
Points fitted to a display rectangle, over exact rational numbers.

The box of some points is the one whose sides are their least and greatest coordinates
(`Box.around?_eq_some_iff`), and each axis is a map of its coordinates that depends on nothing else
of the points. `Axis.Fits` says what such a map does. Main statement: every list of points is
fitted on both axes (`Viewport.fits_normalize`), whatever is flat, the points or the rectangle.
-/

namespace SpringLayout

/-! ### The box -/

namespace Scalar

theorem Spans.unique {low high low' high' : ℚ} {scalars : List ℚ}
    (spans : Spans low high scalars) (spans' : Spans low' high' scalars) :
    low = low' ∧ high = high' :=
  ⟨le_antisymm (spans.low_le low' spans'.low_mem) (spans'.low_le low spans.low_mem),
    le_antisymm (spans'.le_high high spans.high_mem) (spans.le_high high' spans'.high_mem)⟩

/-- A map that keeps the order keeps the least and the greatest. -/
theorem Spans.map {low high : ℚ} {scalars : List ℚ} (spans : Spans low high scalars)
    {f : ℚ → ℚ} (mono : Monotone f) : Spans (f low) (f high) (scalars.map f) where
  low_mem := List.mem_map_of_mem spans.low_mem
  high_mem := List.mem_map_of_mem spans.high_mem
  low_le := List.forall_mem_map.mpr fun a mem => mono (spans.low_le a mem)
  le_high := List.forall_mem_map.mpr fun a mem => mono (spans.le_high a mem)

theorem Spans.low_le_high {low high : ℚ} {scalars : List ℚ} (spans : Spans low high scalars) :
    low ≤ high := spans.low_le high spans.high_mem

end Scalar

/-- The box of some points is the only one that their coordinates span. -/
theorem Box.around?_eq_some_iff {box : Box ℚ} {points : List (Vec ℚ)} :
    around? points = some box ↔ box.Spans points := by
  have numbers : ∀ p ∈ points, p.IsNumber := fun _ _ => ⟨Scalar.isNaN_rat _, Scalar.isNaN_rat _⟩
  constructor
  · intro found
    exact spans_around? found numbers
  · intro spans
    cases found : around? points with
    | none =>
        obtain rfl := around?_eq_none_iff.mp found
        exact absurd spans.x.low_mem List.not_mem_nil
    | some other =>
        have spans' := spans_around? found numbers
        obtain ⟨left, right⟩ := spans'.x.unique spans.x
        obtain ⟨top, bottom⟩ := spans'.y.unique spans.y
        have low : other.low = box.low := Vec.ext left top
        have high : other.high = box.high := Vec.ext right bottom
        rw [show other = ⟨other.low, other.high⟩ from rfl, low, high]

/-! ### One axis -/

namespace Axis

variable {low high start stop : ℚ}

theorem map_fit_of_lt (less : low < high) (a : ℚ) :
    (fit low high start stop).map a = start + (a - low) * ((stop - start) / (high - low)) := by
  have extent : ((0 : Nat) : ℚ) < high - low := by
    rw [Nat.cast_zero]
    exact sub_pos.mpr less
  rw [fit, map, if_pos ⟨extent, rfl⟩]

/-- An axis without extent shows everything in the middle. -/
theorem map_fit_self (low a : ℚ) : (fit low low start stop).map a = (start + stop) / 2 := by
  have flat : ¬ ((0 : Nat) : ℚ) < low - low := by simp
  rw [fit, map, if_neg fun stretched => flat stretched.1, Scalar.midpoint, Nat.cast_ofNat]

theorem map_fit_low (less : low < high) : (fit low high start stop).map low = start := by
  rw [map_fit_of_lt less, sub_self, zero_mul, add_zero]

theorem map_fit_high (less : low < high) : (fit low high start stop).map high = stop := by
  rw [map_fit_of_lt less, mul_div_cancel₀ _ (sub_pos.mpr less).ne', add_sub_cancel]

theorem monotone_map_fit (le : low ≤ high) (ordered : start ≤ stop) :
    Monotone (fit low high start stop).map := by
  intro a b le'
  rcases le.eq_or_lt with rfl | less
  · rw [map_fit_self, map_fit_self]
  · have scale : 0 ≤ (stop - start) / (high - low) :=
      div_nonneg (sub_nonneg.mpr ordered) (sub_pos.mpr less).le
    rw [map_fit_of_lt less, map_fit_of_lt less]
    gcongr

theorem strictMono_map_fit (less : low < high) (extended : start < stop) :
    StrictMono (fit low high start stop).map := by
  intro a b less'
  have scale : 0 < (stop - start) / (high - low) :=
    div_pos (sub_pos.mpr extended) (sub_pos.mpr less)
  rw [map_fit_of_lt less, map_fit_of_lt less]
  gcongr

/-- Not all coordinates are the same. -/
def Varied (coordinates : List ℚ) : Prop := ∃ a ∈ coordinates, ∃ b ∈ coordinates, a ≠ b

theorem varied_iff {coordinates : List ℚ} (spans : Scalar.Spans low high coordinates) :
    Varied coordinates ↔ low < high := by
  constructor
  · rintro ⟨a, mem, b, mem', apart⟩
    by_contra flat
    have all : ∀ c ∈ coordinates, c = low := fun c listed =>
      le_antisymm ((spans.le_high c listed).trans (not_lt.mp flat)) (spans.low_le c listed)
    exact apart ((all a mem).trans (all b mem').symm)
  · intro less
    exact ⟨low, spans.low_mem, high, spans.high_mem, less.ne⟩

/-- `f` fits the coordinates to the interval from `start` to `stop`. -/
structure Fits (start stop : ℚ) (coordinates : List ℚ) (f : ℚ → ℚ) : Prop where
  within : ∀ a ∈ coordinates, start ≤ f a ∧ f a ≤ stop
  least : Varied coordinates → ∀ a ∈ coordinates, (∀ b ∈ coordinates, a ≤ b) → f a = start
  greatest : Varied coordinates → ∀ a ∈ coordinates, (∀ b ∈ coordinates, b ≤ a) → f a = stop
  affine : Varied coordinates → ∃ k d, ∀ a, f a = k * a + d
  monotone : Varied coordinates → Monotone f
  strictMono : Varied coordinates → start < stop → StrictMono f
  centered : ¬ Varied coordinates → ∀ a ∈ coordinates, f a = (start + stop) / 2

theorem fits_fit {coordinates : List ℚ} (spans : Scalar.Spans low high coordinates)
    (ordered : start ≤ stop) : Fits start stop coordinates (fit low high start stop).map := by
  have mono := monotone_map_fit spans.low_le_high ordered
  have varies := varied_iff spans
  constructor
  · intro a mem
    rcases spans.low_le_high.eq_or_lt with rfl | less
    · rw [map_fit_self]
      constructor <;> linarith
    · constructor
      · calc start = (fit low high start stop).map low := (map_fit_low less).symm
          _ ≤ (fit low high start stop).map a := mono (spans.low_le a mem)
      · calc (fit low high start stop).map a ≤ (fit low high start stop).map high :=
              mono (spans.le_high a mem)
          _ = stop := map_fit_high less
  · intro varied a mem least
    have same : a = low := le_antisymm (least low spans.low_mem) (spans.low_le a mem)
    rw [same, map_fit_low (varies.mp varied)]
  · intro varied a mem greatest
    have same : a = high := le_antisymm (spans.le_high a mem) (greatest high spans.high_mem)
    rw [same, map_fit_high (varies.mp varied)]
  · intro varied
    refine ⟨(stop - start) / (high - low), start - low * ((stop - start) / (high - low)), ?_⟩
    intro a
    rw [map_fit_of_lt (varies.mp varied)]
    ring
  · intro _
    exact mono
  · intro varied extended
    exact strictMono_map_fit (varies.mp varied) extended
  · intro flat a _
    have same : low = high := by
      rw [varies] at flat
      exact le_antisymm spans.low_le_high (not_lt.mp flat)
    rw [same, map_fit_self]

end Axis

/-! ### The rectangle -/

namespace Viewport

variable (v : Viewport ℚ) {points : Array (Vec ℚ)}

theorem normalize_of_spans {box : Box ℚ} (spans : box.Spans points.toList) :
    v.normalize points = points.map (v.place box) :=
  normalize_eq (Box.around?_eq_some_iff.mpr spans)

/-- Any points that there are span a box. -/
theorem exists_spans (some : points ≠ #[]) : ∃ box : Box ℚ, box.Spans points.toList := by
  obtain ⟨box, found⟩ := Box.exists_around? (mt Array.toList_eq_nil_iff.mp some)
  exact ⟨box, Box.around?_eq_some_iff.mp found⟩

variable {v}

/-- Every list of points is fitted to the rectangle, in its order and on each axis by itself. -/
theorem fits_normalize (some : points ≠ #[]) (across : v.left ≤ v.right) (down : v.top ≤ v.bottom) :
    ∃ f g : ℚ → ℚ, v.normalize points = points.map (fun p => ⟨f p.x, g p.y⟩) ∧
      Axis.Fits v.left v.right (points.toList.map Vec.x) f ∧
      Axis.Fits v.top v.bottom (points.toList.map Vec.y) g := by
  obtain ⟨box, spans⟩ := exists_spans some
  exact ⟨_, _, normalize_of_spans v spans, Axis.fits_fit spans.x across,
    Axis.fits_fit spans.y down⟩

/-- Points one above the other. -/
def column : Array (Vec ℚ) := #[⟨3, 5⟩, ⟨3, -1⟩, ⟨3, 2⟩]

/-- A rectangle without height. -/
def shelf : Viewport ℚ := ⟨25, 30, 450, 30⟩

theorem fits_normalize_column :
    column ≠ #[] ∧ shelf.left ≤ shelf.right ∧ shelf.top ≤ shelf.bottom ∧
      ∃ f g : ℚ → ℚ, shelf.normalize column = column.map (fun p => ⟨f p.x, g p.y⟩) ∧
        Axis.Fits shelf.left shelf.right (column.toList.map Vec.x) f ∧
        Axis.Fits shelf.top shelf.bottom (column.toList.map Vec.y) g :=
  ⟨by decide, by decide, by decide, fits_normalize (by decide) (by decide) (by decide)⟩

end Viewport

end SpringLayout
