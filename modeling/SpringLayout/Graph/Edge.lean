/-!
Vertices and edges. A graph of `n` vertices names them `0` to `n - 1`, and names its edges by
their places in its edge list. Edges may be parallel, and may join a vertex to itself.

`Edge` is an edge as it is given, which may point past the last vertex. `Link n` is one whose ends
are known to be among `n` vertices.
-/

namespace SpringLayout

/-- A vertex, by its place in the graph. -/
structure VertexId where
  index : Nat
deriving DecidableEq, Ord, Repr

/-- An edge, by its place in the edge list. -/
structure EdgeId where
  index : Nat
deriving DecidableEq, Ord, Repr

namespace VertexId

/-- The vertex as messages name it. -/
def label (v : VertexId) : String := "Vertex(" ++ toString v.index ++ ")"

/-- The vertex is one of the first `count`. -/
abbrev Within (v : VertexId) (count : Nat) : Prop := v.index < count

end VertexId

/-- The edge as messages name it. -/
def EdgeId.label (e : EdgeId) : String := "Edge(" ++ toString e.index ++ ")"

/-- An edge from its head to its tail. -/
structure Edge where
  head : VertexId
  tail : VertexId
deriving DecidableEq, Repr

/-- An edge between two of `n` vertices. -/
structure Link (n : Nat) where
  head : Fin n
  tail : Fin n
deriving DecidableEq, Repr

namespace Edge

/-- Both ends are among the first `count` vertices. -/
abbrev Within (e : Edge) (count : Nat) : Prop := e.head.Within count ∧ e.tail.Within count

/-- The edge joins a vertex to itself. -/
abbrev IsLoop (e : Edge) : Prop := e.head = e.tail

/-- The vertex is an end of the edge. -/
abbrev Touches (e : Edge) (v : VertexId) : Prop := e.head = v ∨ e.tail = v

/-- The end across from `v`; for a loop `v` itself. -/
def across (e : Edge) (v : VertexId) : VertexId := if e.head = v then e.tail else e.head

/-- The edge as a link, if both ends are among `n` vertices. -/
def link? (n : Nat) (e : Edge) : Option (Link n) :=
  if h : e.Within n then some ⟨⟨e.head.index, h.1⟩, ⟨e.tail.index, h.2⟩⟩ else none

end Edge

/-- The link as an edge of the graph. -/
def Link.edge {n : Nat} (l : Link n) : Edge := ⟨⟨l.head⟩, ⟨l.tail⟩⟩

theorem Edge.link?_eq_some_iff {n : Nat} {e : Edge} {l : Link n} :
    e.link? n = some l ↔ l.edge = e := by
  obtain ⟨⟨a⟩, ⟨b⟩⟩ := e
  obtain ⟨⟨c, hc⟩, ⟨d, hd⟩⟩ := l
  simp only [Edge.link?, Link.edge]
  constructor
  · intro h
    split at h
    · simpa using h.symm
    · simp at h
  · intro h
    simp only [Edge.mk.injEq, VertexId.mk.injEq] at h
    obtain ⟨rfl, rfl⟩ := h
    exact dif_pos ⟨hc, hd⟩

end SpringLayout
