import SpringLayout.Plane.Box

/-!
The display rectangle, and the fitting of points to it.

Each axis is fitted by itself: the least coordinate goes to the start of the axis, the greatest to
its end, the others in proportion. An axis without extent, or with one that is not a finite
number, has nothing to stretch, so every point goes to its middle.
-/

namespace SpringLayout

/-- A map of one axis onto an interval of the display. -/
structure Axis (α : Type) where
  /-- The coordinate that goes to `start`. -/
  low : α
  start : α
  /-- Where all points go when nothing can be stretched. -/
  middle : α
  /-- The display's extent for a unit of the axis, if the axis can be stretched. -/
  scale : Option α
deriving Repr

namespace Axis

variable {α : Type} [Scalar α]

/-- The map that takes the interval from `low` to `high` to the one from `start` to `stop`. -/
def fit (low high start stop : α) : Axis α where
  low := low
  start := start
  middle := Scalar.midpoint start stop
  scale :=
    let extent := high - low
    if ((0 : Nat) : α) < extent ∧ Scalar.isFinite extent then some ((stop - start) / extent)
    else none

/-- The place on the display of one coordinate. -/
def map (a : Axis α) (value : α) : α :=
  match a.scale with
  | some scale => a.start + (value - a.low) * scale
  | none => a.middle

end Axis

/-- A display rectangle. Nothing keeps `left` below `right` or `top` below `bottom`. -/
structure Viewport (α : Type) where
  left : α
  top : α
  right : α
  bottom : α
deriving Repr

namespace Viewport

variable {α : Type} [Scalar α]

/-- The rectangle that is used when none is given. -/
def standard : Viewport α where
  left := ((25 : Nat) : α)
  top := ((25 : Nat) : α)
  right := ((450 : Nat) : α)
  bottom := ((450 : Nat) : α)

/-- The point in the middle of the rectangle. -/
def center (v : Viewport α) : Vec α :=
  ⟨Scalar.midpoint v.left v.right, Scalar.midpoint v.top v.bottom⟩

/-- One point placed on the rectangle, when `box` is to fill it. -/
def place (v : Viewport α) (box : Box α) (p : Vec α) : Vec α where
  x := (Axis.fit box.low.x box.high.x v.left v.right).map p.x
  y := (Axis.fit box.low.y box.high.y v.top v.bottom).map p.y

/-- The points fitted to the rectangle, in the same order. -/
def normalize (v : Viewport α) (points : Array (Vec α)) : Array (Vec α) :=
  match Box.around? points.toList with
  | none => #[]
  | some box => points.map (v.place box)

theorem normalize_eq {v : Viewport α} {points : Array (Vec α)} {box : Box α}
    (found : Box.around? points.toList = some box) :
    v.normalize points = points.map (v.place box) := by
  rw [normalize, found]

@[simp] theorem size_normalize (v : Viewport α) (points : Array (Vec α)) :
    (v.normalize points).size = points.size := by
  unfold normalize
  cases bounds : Box.around? points.toList with
  | none => exact (congrArg List.length (Box.around?_eq_none_iff.mp bounds)).symm
  | some box => exact Array.size_map

end Viewport

end SpringLayout
