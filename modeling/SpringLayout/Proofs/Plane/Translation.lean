import SpringLayout.Plane.Viewport
import SpringLayout.Proofs.Scalar.Real

/-!
Points of the plane moved by one displacement, over exact numbers.

The displacement between two points stays the same when both are moved, and so does every place on
the display when all points are: each axis is fitted by differences from its least coordinate
(`Viewport.normalize_translate`).
-/

namespace SpringLayout

variable (t : Vec ℝ)

namespace Vec

theorem translate_sub_translate (p q : Vec ℝ) : (p + t) - (q + t) = p - q := by
  ext
  · exact add_sub_add_right_eq_sub p.x q.x t.x
  · exact add_sub_add_right_eq_sub p.y q.y t.y

theorem translate_add (p v : Vec ℝ) : p + t + v = p + v + t := by
  ext
  · exact add_right_comm p.x t.x v.x
  · exact add_right_comm p.y t.y v.y

end Vec

namespace Box

/-- The box moved by `t`. -/
noncomputable def translate (b : Box ℝ) : Box ℝ := ⟨b.low + t, b.high + t⟩

theorem cover_translate (b : Box ℝ) (p : Vec ℝ) :
    (b.translate t).cover (p + t) = (b.cover p).translate t := by
  simp only [cover, translate, Vec.add_x, Vec.add_y, Scalar.lesser_real, Scalar.greater_real]
  congr 1
  · ext
    · exact min_add_add_right b.low.x p.x t.x
    · exact min_add_add_right b.low.y p.y t.y
  · ext
    · exact max_add_add_right b.high.x p.x t.x
    · exact max_add_add_right b.high.y p.y t.y

theorem foldl_cover_translate (b : Box ℝ) (points : List (Vec ℝ)) :
    (points.map (· + t)).foldl cover (b.translate t) = (points.foldl cover b).translate t := by
  induction points generalizing b with
  | nil => rfl
  | cons p rest ih => rw [List.map_cons, List.foldl_cons, cover_translate, ih, List.foldl_cons]

/-- The box of points that are moved moves with them. -/
theorem around?_translate (points : List (Vec ℝ)) :
    around? (points.map (· + t)) = (around? points).map (translate t) := by
  cases points with
  | nil => rfl
  | cons p rest => exact congrArg some (foldl_cover_translate t (ofPoint p) rest)

end Box

namespace Axis

/-- Moving an interval and a coordinate alike does not show. -/
theorem map_fit_add (low high start stop value shift : ℝ) :
    (fit (low + shift) (high + shift) start stop).map (value + shift) =
      (fit low high start stop).map value := by
  simp only [fit, map, add_sub_add_right_eq_sub]

end Axis

namespace Viewport

variable (v : Viewport ℝ)

theorem place_translate (box : Box ℝ) (p : Vec ℝ) :
    v.place (box.translate t) (p + t) = v.place box p := by
  ext
  · exact Axis.map_fit_add _ _ _ _ _ _
  · exact Axis.map_fit_add _ _ _ _ _ _

/-- Points that are all moved alike are fitted to the same places. -/
theorem normalize_translate (points : Array (Vec ℝ)) :
    v.normalize (points.map (· + t)) = v.normalize points := by
  rw [normalize, normalize, Array.toList_map, Box.around?_translate]
  cases Box.around? points.toList with
  | none => rfl
  | some box =>
      rw [Option.map_some]
      simp only [Array.map_map, Function.comp_def, place_translate]

end Viewport

end SpringLayout
