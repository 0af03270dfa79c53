import Mathlib.Tactic.FieldSimp
import SpringLayout.Proofs.Plane.Fitting

/-!
All that shows of points is their shape, over exact rational numbers.

Points that are mapped on each axis by a map that keeps the order span the image of their box
(`Box.Spans.map`). So it can be told on one axis what fitting does to coordinates that were
stretched and shifted, and to coordinates that were fitted before. Main statement: it undoes the one
and leaves the other (`Viewport.normalize_shape`).
-/

namespace SpringLayout

/-- A map of the plane that maps each axis by itself. -/
def Vec.onAxes (f g : ℚ → ℚ) (p : Vec ℚ) : Vec ℚ := ⟨f p.x, g p.y⟩

/-- The image of a box spans the images of its points. -/
theorem Box.Spans.map {box : Box ℚ} {points : List (Vec ℚ)} (spans : box.Spans points)
    {f g : ℚ → ℚ} (mono : Monotone f) (mono' : Monotone g) :
    Box.Spans ⟨box.low.onAxes f g, box.high.onAxes f g⟩ (points.map (Vec.onAxes f g)) := by
  have x := spans.x.map mono
  have y := spans.y.map mono'
  rw [List.map_map] at x y
  constructor
  · rw [List.map_map]
    exact x
  · rw [List.map_map]
    exact y

/-! ### One axis -/

namespace Axis

variable {low high start stop : ℚ} (le : low ≤ high)
include le

/-- An axis that is stretched and shifted with its coordinates shows them where they were. -/
theorem map_fit_stretch {a : ℚ} (pos : 0 < a) (s x : ℚ) :
    (fit (a * low + s) (a * high + s) start stop).map (a * x + s) =
      (fit low high start stop).map x := by
  rcases le.eq_or_lt with rfl | less
  · rw [map_fit_self, map_fit_self]
  · have stretched : a * low + s < a * high + s := by gcongr
    have extent : high - low ≠ 0 := (sub_pos.mpr less).ne'
    have offset : a * x + s - (a * low + s) = a * (x - low) := by ring
    have extent' : a * high + s - (a * low + s) = a * (high - low) := by ring
    rw [map_fit_of_lt stretched, map_fit_of_lt less, offset, extent']
    field_simp

/-- What fills the interval is not moved by fitting it again. -/
theorem map_fit_map_fit (ordered : start ≤ stop) (x : ℚ) :
    (fit ((fit low high start stop).map low) ((fit low high start stop).map high) start stop).map
        ((fit low high start stop).map x) =
      (fit low high start stop).map x := by
  rcases le.eq_or_lt with rfl | less
  · rw [map_fit_self, map_fit_self]
  · rw [map_fit_low less, map_fit_high less]
    rcases ordered.eq_or_lt with rfl | extended
    · rw [map_fit_self, map_fit_of_lt less, sub_self, zero_div, mul_zero, add_zero,
        add_self_div_two]
    · rw [map_fit_of_lt extended, div_self (sub_pos.mpr extended).ne', mul_one, add_sub_cancel]

end Axis

/-! ### The rectangle -/

namespace Viewport

variable (v : Viewport ℚ) (points : Array (Vec ℚ))

/-- Points mapped on each axis by itself are fitted by the image of their box. -/
theorem normalize_onAxes {points : Array (Vec ℚ)} {box : Box ℚ} (spans : box.Spans points.toList)
    {f g : ℚ → ℚ} (mono : Monotone f) (mono' : Monotone g) :
    v.normalize (points.map (Vec.onAxes f g)) =
      points.map fun p => v.place ⟨box.low.onAxes f g, box.high.onAxes f g⟩ (p.onAxes f g) := by
  have image := spans.map mono mono'
  rw [← Array.toList_map] at image
  rw [normalize_of_spans v image, Array.map_map]
  rfl

/-- Stretching and shifting the points on each axis does not show. -/
theorem normalize_stretch {a b : ℚ} (pos : 0 < a) (pos' : 0 < b) (s t : ℚ) :
    v.normalize (points.map (Vec.onAxes (fun x => a * x + s) fun y => b * y + t)) =
      v.normalize points := by
  rcases eq_or_ne points #[] with rfl | some
  · rw [Array.map_empty]
  obtain ⟨box, spans⟩ := exists_spans some
  have stretch : ∀ {a : ℚ} (_ : 0 < a) (s : ℚ), Monotone fun x => a * x + s := by
    intro a pos s x y le
    dsimp only
    gcongr
  rw [normalize_onAxes v spans (stretch pos s) (stretch pos' t), normalize_of_spans v spans]
  refine Array.map_congr_left fun p _ => Vec.ext ?_ ?_
  · exact Axis.map_fit_stretch spans.x.low_le_high pos s p.x
  · exact Axis.map_fit_stretch spans.y.low_le_high pos' t p.y

/-- Points that were fitted to a rectangle stay where they are when they are fitted to it again. -/
theorem normalize_normalize (across : v.left ≤ v.right) (down : v.top ≤ v.bottom) :
    v.normalize (v.normalize points) = v.normalize points := by
  rcases eq_or_ne points #[] with rfl | some
  · rfl
  obtain ⟨box, spans⟩ := exists_spans some
  have mono := Axis.monotone_map_fit spans.x.low_le_high across
  have mono' := Axis.monotone_map_fit spans.y.low_le_high down
  have fitted : v.place box = Vec.onAxes (Axis.fit box.low.x box.high.x v.left v.right).map
      (Axis.fit box.low.y box.high.y v.top v.bottom).map := rfl
  rw [normalize_of_spans v spans, fitted, normalize_onAxes v spans mono mono']
  refine Array.map_congr_left fun p _ => Vec.ext ?_ ?_
  · exact Axis.map_fit_map_fit spans.x.low_le_high across p.x
  · exact Axis.map_fit_map_fit spans.y.low_le_high down p.y

/-- Fitting sees the shape of the points alone. -/
theorem normalize_shape :
    (∀ {a b : ℚ}, 0 < a → 0 < b → ∀ s t : ℚ,
      v.normalize (points.map fun p => ⟨a * p.x + s, b * p.y + t⟩) = v.normalize points) ∧
    (v.left ≤ v.right → v.top ≤ v.bottom →
      v.normalize (v.normalize points) = v.normalize points) :=
  ⟨fun pos pos' s t => normalize_stretch v points pos pos' s t, normalize_normalize v points⟩

theorem normalize_shape_column :
    ((0 : ℚ) < 2 ∧ (0 : ℚ) < 1 / 3 ∧
      shelf.normalize (column.map fun p => ⟨2 * p.x + -7, 1 / 3 * p.y + 4⟩) =
        shelf.normalize column) ∧
    (shelf.left ≤ shelf.right ∧ shelf.top ≤ shelf.bottom ∧
      shelf.normalize (shelf.normalize column) = shelf.normalize column) :=
  ⟨⟨by norm_num, by norm_num, (normalize_shape shelf column).1 (by norm_num) (by norm_num) (-7) 4⟩,
    by decide, by decide, (normalize_shape shelf column).2 (by decide) (by decide)⟩

end Viewport

end SpringLayout
