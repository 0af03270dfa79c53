import SpringLayout.Graph.Edge
import SpringLayout.Plane.Vec

/-!
Finding the vertex under the pointer.

The index holds places of vertices in a search tree. `EntryTree` names what it asks of the tree;
`EntryList` is one without any order, in which every search looks at all entries. Moving a vertex
takes out one entry that equals the old place and puts in the new one. A place with a NaN equals no
place, not even itself, so it is never taken out again.
-/

namespace SpringLayout

/-- A vertex at a place of the display. -/
structure HitEntry (α : Type) where
  vertex : VertexId
  place : Vec α
deriving BEq, Repr

namespace HitEntry

/-- The square of the distance of an entry from a point. -/
def distSq {α : Type} [Scalar α] (p : Vec α) (e : HitEntry α) : α := (e.place - p).lengthSq

/-- One entry for each place, of the vertex of the same number. -/
def ofPoints {α : Type} (points : Array (Vec α)) : List (HitEntry α) :=
  points.toList.zipIdx.map fun (p, i) => ⟨⟨i⟩, p⟩

end HitEntry

/-! ### Trees of entries -/

/-- A type of trees that hold entries and find the nearest one. -/
class EntryTree (α : outParam Type) (τ : Type) where
  /-- The entries in the tree, in the order in which the tree has them. -/
  entries (t : τ) : List (HitEntry α)
  empty : τ
  /-- A tree of some entries. -/
  load (entries : List (HitEntry α)) : τ
  insert (e : HitEntry α) (t : τ) : τ
  /-- Takes out an entry equal to the given one and answers it, if one is found. -/
  remove (e : HitEntry α) (t : τ) : Option (HitEntry α) × τ
  /-- An entry nearest to a point. -/
  nearest? (p : Vec α) (t : τ) : Option (HitEntry α)
  size (t : τ) : Nat

/-- Entries in a list, the latest first. -/
structure EntryList (α : Type) where
  entries : List (HitEntry α)
deriving Repr

namespace EntryList

variable {α : Type} [Scalar α]

/-- The entry nearer to `p`; the first of two equally near ones. -/
def nearer (p : Vec α) (a b : HitEntry α) : HitEntry α :=
  if b.distSq p < a.distSq p then b else a

/-- The entry nearest to a point, the first of equally near ones. -/
def nearest? (p : Vec α) (t : EntryList α) : Option (HitEntry α) :=
  match t.entries with
  | [] => none
  | e :: rest => some (rest.foldl (nearer p) e)

instance : EntryTree α (EntryList α) where
  entries := entries
  empty := ⟨[]⟩
  load := EntryList.mk
  insert e t := ⟨e :: t.entries⟩
  remove e t := (t.entries.find? (· == e), ⟨t.entries.eraseP (· == e)⟩)
  nearest? := nearest?
  size t := t.entries.length

end EntryList

/-! ### The index -/

/-- The places that can be hit, in a tree. -/
structure HitIndex (τ : Type) where
  tree : τ
deriving Repr

namespace HitIndex

variable {α τ : Type} [EntryTree α τ]

/-- The entries of the index, in the order in which its tree has them. -/
def entries (x : HitIndex τ) : List (HitEntry α) := EntryTree.entries x.tree

/-- The index without entries. -/
def empty : HitIndex τ := ⟨EntryTree.empty⟩

/-- The index of the places of all vertices. -/
def ofPoints (points : Array (Vec α)) : HitIndex τ := ⟨EntryTree.load (HitEntry.ofPoints points)⟩

/-- How many entries there are. -/
def size (x : HitIndex τ) : Nat := EntryTree.size x.tree

/-- There are no entries. -/
def isEmpty (x : HitIndex τ) : Bool := EntryTree.size x.tree == 0

/-- The index after vertex `v` went from `source` to `target`, and whether it was found at
`source`. It is put at `target` in either case. -/
def relocate (v : VertexId) (source target : Vec α) (x : HitIndex τ) : Bool × HitIndex τ :=
  let (taken, rest) := EntryTree.remove ⟨v, source⟩ x.tree
  (taken.isSome, ⟨EntryTree.insert ⟨v, target⟩ rest⟩)

/-- The vertex nearest to a point. -/
def nearest? (p : Vec α) (x : HitIndex τ) : Option VertexId :=
  (EntryTree.nearest? p x.tree).map HitEntry.vertex

/-- The vertex nearest to a point, if it is within `radius` of it; the sign of the radius does
not matter. -/
def nearestWithin? [Scalar α] (p : Vec α) (radius : α) (x : HitIndex τ) : Option VertexId :=
  ((EntryTree.nearest? p x.tree).filter fun e => decide (e.distSq p ≤ radius * radius)).map
    HitEntry.vertex

end HitIndex

end SpringLayout
