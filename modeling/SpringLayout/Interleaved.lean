import SpringLayout.Error
import SpringLayout.Plane.Vec

/-!
Flat lists that hold pairs one after the other, `x₀, y₀, x₁, y₁, …`, as callers keep points and
edges. `join` writes pairs out flat and `split` reads them back; `checkEven` refuses a flat list
that leaves one value over.
-/

namespace SpringLayout.Interleaved

variable {β : Type}

/-- The pairs written out one after the other. -/
def join : List (β × β) → List β
  | [] => []
  | (a, b) :: rest => a :: b :: join rest

/-- The pairs of a flat list; a value left over is dropped. -/
def split : List β → List (β × β)
  | a :: b :: rest => (a, b) :: split rest
  | _ => []

theorem split_join (pairs : List (β × β)) : split (join pairs) = pairs := by
  induction pairs with
  | nil => rfl
  | cons pair rest ih => simp [join, split, ih]

theorem join_split : ∀ flat : List β, flat.length % 2 = 0 → join (split flat) = flat
  | [], _ => rfl
  | [_], h => by simp at h
  | a :: b :: rest, h => by
      have : rest.length % 2 = 0 := by simp at h; omega
      simp [split, join, join_split rest this]

@[simp] theorem length_join (pairs : List (β × β)) : (join pairs).length = 2 * pairs.length := by
  induction pairs with
  | nil => rfl
  | cons pair rest ih => simp [join, ih]; omega

@[simp] theorem length_split : ∀ flat : List β, (split flat).length = flat.length / 2
  | [] => by simp [split]
  | [_] => by simp [split]
  | _ :: _ :: rest => by simp [split, length_split rest]; omega

/-- Refuses a flat list that leaves one value over. -/
def checkEven (array : FlatArray) (flat : List β) : Except LayoutError Unit :=
  if flat.length % 2 = 0 then .ok () else .error (.oddLength array flat.length)

/-- The edges of a flat list of heads and tails. -/
def edges (flat : List Nat) : Except LayoutError (List Edge) := do
  checkEven .edges flat
  return (split flat).map fun ends => ⟨⟨ends.1⟩, ⟨ends.2⟩⟩

/-- The points written out flat. -/
def ofPoints {α : Type} (points : Array (Vec α)) : Array α :=
  (join (points.toList.map fun p => (p.x, p.y))).toArray

/-- The points of a flat array of coordinates. -/
def toPoints {α : Type} (flat : Array α) : Array (Vec α) :=
  ((split flat.toList).map fun c => ⟨c.1, c.2⟩).toArray

end SpringLayout.Interleaved
