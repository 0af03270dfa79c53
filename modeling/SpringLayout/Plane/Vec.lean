import SpringLayout.Scalar

/-!
Points and displacements of the plane. Sums, differences and multiples are taken coordinate by
coordinate, and two vectors are `==` when both coordinates are, so a vector with a NaN equals
nothing.
-/

namespace SpringLayout

/-- A point of the plane, or a displacement between two points. -/
@[ext] structure Vec (α : Type) where
  x : α
  y : α
deriving BEq, Repr, Inhabited

namespace Vec

section Arithmetic

variable {α : Type} [Scalar α]

instance : Add (Vec α) := ⟨fun a b => ⟨a.x + b.x, a.y + b.y⟩⟩

instance : Sub (Vec α) := ⟨fun a b => ⟨a.x - b.x, a.y - b.y⟩⟩

instance : Neg (Vec α) := ⟨fun a => ⟨-a.x, -a.y⟩⟩

instance : HMul (Vec α) α (Vec α) := ⟨fun a s => ⟨a.x * s, a.y * s⟩⟩

@[simp] theorem add_x (a b : Vec α) : (a + b).x = a.x + b.x := rfl
@[simp] theorem add_y (a b : Vec α) : (a + b).y = a.y + b.y := rfl
@[simp] theorem sub_x (a b : Vec α) : (a - b).x = a.x - b.x := rfl
@[simp] theorem sub_y (a b : Vec α) : (a - b).y = a.y - b.y := rfl
@[simp] theorem neg_x (a : Vec α) : (-a).x = -a.x := rfl
@[simp] theorem neg_y (a : Vec α) : (-a).y = -a.y := rfl
@[simp] theorem mul_x (a : Vec α) (s : α) : (a * s).x = a.x * s := rfl
@[simp] theorem mul_y (a : Vec α) (s : α) : (a * s).y = a.y * s := rfl

/-- The origin, or no displacement at all. -/
def zero : Vec α := ⟨((0 : Nat) : α), ((0 : Nat) : α)⟩

/-- The square of the length. -/
def lengthSq (a : Vec α) : α := a.x * a.x + a.y * a.y

/-- Both coordinates are finite. -/
def isFinite (a : Vec α) : Bool := Scalar.isFinite a.x && Scalar.isFinite a.y

end Arithmetic

section Polar

variable {α : Type} [PolarScalar α]

/-- The length of a displacement. -/
def length (a : Vec α) : α := PolarScalar.sqrt a.lengthSq

/-- The distance between two points. -/
def dist (a b : Vec α) : α := (a - b).length

/-- The displacement of length one at an angle in radians. -/
def ofAngle (angle : α) : Vec α := ⟨PolarScalar.cos angle, PolarScalar.sin angle⟩

end Polar

end Vec

end SpringLayout
