import SpringLayout.Plane.Box
import SpringLayout.Proofs.Scalar.Order

/-!
The bounding box of points that are numbers.

Each side of the box is found by comparing, so it is the coordinate of one of the points, and no
point lies beyond it (`Box.spans_around?`).
-/

namespace SpringLayout

/-! ### The least and the greatest scalar -/

namespace Scalar

variable {α : Type} [Scalar α]

theorem lesser_eq_or (a b : α) : lesser a b = a ∨ lesser a b = b := by
  unfold lesser
  split
  · exact .inr rfl
  · split
    · exact .inr rfl
    · exact .inl rfl

theorem greater_eq_or (a b : α) : greater a b = a ∨ greater a b = b := by
  unfold greater
  split
  · exact .inr rfl
  · split
    · exact .inr rfl
    · exact .inl rfl

section Bounds

variable [OrderedScalar α] {a b : α} (number : isNaN a = false) (number' : isNaN b = false)
include number number'

theorem lesser_le : lesser a b ≤ a ∧ lesser a b ≤ b := by
  rw [lesser, number]
  by_cases less : b < a
  · rw [if_neg Bool.false_ne_true, if_pos less]
    exact ⟨OrderedScalar.le_of_lt less, OrderedScalar.le_refl number'⟩
  · rw [if_neg Bool.false_ne_true, if_neg less]
    exact ⟨OrderedScalar.le_refl number, OrderedScalar.le_of_not_lt number number' less⟩

theorem le_greater : a ≤ greater a b ∧ b ≤ greater a b := by
  rw [greater, number]
  by_cases less : a < b
  · rw [if_neg Bool.false_ne_true, if_pos less]
    exact ⟨OrderedScalar.le_of_lt less, OrderedScalar.le_refl number'⟩
  · rw [if_neg Bool.false_ne_true, if_neg less]
    exact ⟨OrderedScalar.le_refl number, OrderedScalar.le_of_not_lt number' number less⟩

end Bounds

/-- `low` and `high` are the least and the greatest of the scalars. -/
structure Spans (low high : α) (scalars : List α) : Prop where
  low_mem : low ∈ scalars
  high_mem : high ∈ scalars
  low_le : ∀ a ∈ scalars, low ≤ a
  le_high : ∀ a ∈ scalars, a ≤ high

variable [OrderedScalar α]

theorem spans_singleton {a : α} (number : isNaN a = false) : Spans a a [a] := by
  have itself : ∀ b ∈ [a], b = a := by simp
  refine ⟨List.mem_singleton_self a, List.mem_singleton_self a, ?_, ?_⟩
  · intro b mem
    rw [itself b mem]
    exact OrderedScalar.le_refl number
  · intro b mem
    rw [itself b mem]
    exact OrderedScalar.le_refl number

theorem Spans.append {low high : α} {scalars : List α} (spans : Spans low high scalars)
    (numbers : ∀ a ∈ scalars, isNaN a = false) {a : α} (number : isNaN a = false) :
    Spans (lesser low a) (greater high a) (scalars ++ [a]) := by
  have below := lesser_le (numbers low spans.low_mem) number
  have above := le_greater (numbers high spans.high_mem) number
  constructor
  · rcases lesser_eq_or low a with same | same
    · rw [same]
      exact List.mem_append_left _ spans.low_mem
    · simp [same]
  · rcases greater_eq_or high a with same | same
    · rw [same]
      exact List.mem_append_left _ spans.high_mem
    · simp [same]
  · intro b mem
    rcases List.mem_append.mp mem with before | last
    · exact OrderedScalar.le_trans below.1 (spans.low_le b before)
    · obtain rfl := List.mem_singleton.mp last
      exact below.2
  · intro b mem
    rcases List.mem_append.mp mem with before | last
    · exact OrderedScalar.le_trans (spans.le_high b before) above.1
    · obtain rfl := List.mem_singleton.mp last
      exact above.2

end Scalar

/-! ### The box -/

/-- Neither coordinate is a NaN. -/
def Vec.IsNumber {α : Type} [Scalar α] (p : Vec α) : Prop :=
  Scalar.isNaN p.x = false ∧ Scalar.isNaN p.y = false

namespace Box

variable {α : Type} [Scalar α]

/-- The sides of the box are the least and the greatest coordinates of the points. -/
structure Spans (b : Box α) (points : List (Vec α)) : Prop where
  x : Scalar.Spans b.low.x b.high.x (points.map Vec.x)
  y : Scalar.Spans b.low.y b.high.y (points.map Vec.y)

theorem exists_around? {points : List (Vec α)} (some : points ≠ []) :
    ∃ b, around? points = .some b :=
  Option.ne_none_iff_exists'.mp (mt around?_eq_none_iff.mp some)

/-- What holds of the box of a point, and goes on to hold when one more point is covered, holds of
the box of any points. -/
theorem around?_induction {motive : Box α → List (Vec α) → Prop}
    (one : ∀ p, motive (ofPoint p) [p])
    (more : ∀ b points p, motive b points → motive (b.cover p) (points ++ [p]))
    {b : Box α} {points : List (Vec α)} (found : around? points = some b) : motive b points := by
  have run : ∀ (rest : List (Vec α)) {b points}, motive b points →
      motive (rest.foldl cover b) (points ++ rest) := by
    intro rest
    induction rest with
    | nil => simp
    | cons p rest ih =>
        intro b points holds
        rw [List.append_cons]
        exact ih (more b points p holds)
  cases points with
  | nil => cases found
  | cons p rest =>
      cases found
      exact run rest (one p)

variable [OrderedScalar α] {b : Box α} {points : List (Vec α)}

theorem spans_ofPoint {p : Vec α} (number : p.IsNumber) : (ofPoint p).Spans [p] :=
  ⟨Scalar.spans_singleton number.1, Scalar.spans_singleton number.2⟩

theorem Spans.append (spans : b.Spans points) (numbers : ∀ p ∈ points, p.IsNumber) {p : Vec α}
    (number : p.IsNumber) : (b.cover p).Spans (points ++ [p]) := by
  constructor
  · rw [List.map_append]
    refine spans.x.append ?_ number.1
    rw [List.forall_mem_map]
    exact fun q mem => (numbers q mem).1
  · rw [List.map_append]
    refine spans.y.append ?_ number.2
    rw [List.forall_mem_map]
    exact fun q mem => (numbers q mem).2

/-- The sides of the bounding box are the least and the greatest coordinates. -/
theorem spans_around? (found : around? points = some b) (numbers : ∀ p ∈ points, p.IsNumber) :
    b.Spans points := by
  refine around?_induction (motive := fun b points => (∀ p ∈ points, p.IsNumber) → b.Spans points)
    ?_ ?_ found numbers
  · intro p numbers
    exact spans_ofPoint (numbers p (List.mem_singleton_self p))
  · intro b points p ih numbers
    obtain ⟨before, last⟩ := List.forall_mem_append.mp numbers
    exact (ih before).append before (last p (List.mem_singleton_self p))

end Box

end SpringLayout
