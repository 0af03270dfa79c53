import SpringLayout.Error
import SpringLayout.Plane.Vec

/-!
A graph as it is described by a caller: named vertices, each with a hint where to start, and edges
by the places of their ends in the list of vertices.
-/

namespace SpringLayout

/-- A vertex of a description, with the place where it may start. -/
structure VertexEntry (α : Type) where
  name : String
  hint : Vec α
deriving Repr

/-- An edge of a description. Its direction is kept and plays no part in the layout. -/
structure EdgeEntry where
  head : UInt32
  tail : UInt32
  directed : Bool
deriving DecidableEq, Repr

/-- The edge without its direction. -/
def EdgeEntry.edge (e : EdgeEntry) : Edge := ⟨⟨e.head.toNat⟩, ⟨e.tail.toNat⟩⟩

/-- A graph as it is described. -/
structure Description (α : Type) where
  vertices : List (VertexEntry α)
  edges : List EdgeEntry
deriving Repr

namespace Description

variable {α : Type}

/-- How many vertices there are. -/
def vertexCount (d : Description α) : Nat := d.vertices.length

/-- The names of the vertices in order. -/
def names (d : Description α) : List String := d.vertices.map VertexEntry.name

/-- The hints of the vertices in order. -/
def hints (d : Description α) : List (Vec α) := d.vertices.map VertexEntry.hint

/-- The edges in order, unless one has an end past the last vertex. -/
def layoutEdges (d : Description α) : Except LayoutError (List Edge) :=
  d.edges.zipIdx.mapM fun (entry, k) =>
    if entry.edge.Within d.vertexCount then .ok entry.edge
    else .error (.invalidEdge ⟨k⟩ entry.edge d.vertexCount)

end Description

end SpringLayout
