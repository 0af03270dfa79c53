import SpringLayout.Plane.Vec

/-!
The bounding box of a set of points. Each of its four sides is found by itself, passing over NaN
coordinates, so a side is a NaN only when no point has a number there.
-/

namespace SpringLayout

/-- An axis-aligned rectangle, by its two opposite corners. -/
structure Box (α : Type) where
  low : Vec α
  high : Vec α
deriving Repr

namespace Box

variable {α : Type} [Scalar α]

/-- The box of a single point. -/
def ofPoint (p : Vec α) : Box α := ⟨p, p⟩

/-- The box stretched to hold one more point. -/
def cover (b : Box α) (p : Vec α) : Box α where
  low := ⟨Scalar.lesser b.low.x p.x, Scalar.lesser b.low.y p.y⟩
  high := ⟨Scalar.greater b.high.x p.x, Scalar.greater b.high.y p.y⟩

/-- The bounding box of the points in order; there is none of no points. -/
def around? : List (Vec α) → Option (Box α)
  | [] => none
  | p :: rest => some (rest.foldl cover (ofPoint p))

theorem around?_eq_none_iff {points : List (Vec α)} : around? points = none ↔ points = [] := by
  cases points with
  | nil => exact iff_of_true rfl rfl
  | cons p rest => exact iff_of_false (Option.some_ne_none _) (List.cons_ne_nil p rest)

end Box

end SpringLayout
