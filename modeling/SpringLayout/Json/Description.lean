import SpringLayout.Graph.Description
import SpringLayout.Json.Value

/-!
Descriptions of graphs in JSON. The lists of vertices and of edges may be left out when empty, and
an edge is undirected unless it says otherwise; all else must be there.
-/

namespace SpringLayout

open Json

/-- A vertex written down. -/
def VertexEntry.toJson (v : VertexEntry Float) : Json :=
  .object [
    ("name", .string v.name),
    ("x", .real v.hint.x),
    ("y", .real v.hint.y)]

/-- A vertex, which must have a name and both coordinates. -/
def VertexEntry.ofJson? (j : Json) : Option (VertexEntry Float) := do
  let members ← j.members?
  let name ← required members "name" string?
  let x ← required members "x" number?
  let y ← required members "y" number?
  return ⟨name, ⟨x, y⟩⟩

/-- An edge written down. -/
def EdgeEntry.toJson (e : EdgeEntry) : Json :=
  .object [
    ("head", ofWord e.head),
    ("tail", ofWord e.tail),
    ("directed", .bool e.directed)]

/-- An edge, which must have both ends. -/
def EdgeEntry.ofJson? (j : Json) : Option EdgeEntry := do
  let members ← j.members?
  let head ← required members "head" word?
  let tail ← required members "tail" word?
  let directed ← optional members "directed" bool? false
  return ⟨head, tail, directed⟩

/-- A graph written down. -/
def Description.toJson (d : Description Float) : Json :=
  .object [
    ("vertices", .array (d.vertices.map VertexEntry.toJson)),
    ("edges", .array (d.edges.map EdgeEntry.toJson))]

/-- A graph, all of whose vertices and edges can be read. -/
def Description.ofJson? (j : Json) : Option (Description Float) := do
  let members ← j.members?
  let vertices ← optional members "vertices" (list? VertexEntry.ofJson?) []
  let edges ← optional members "edges" (list? EdgeEntry.ofJson?) []
  return ⟨vertices, edges⟩

end SpringLayout
