import SpringLayout.Force.Config
import SpringLayout.Json.Value
import SpringLayout.Scalar.Binary64

/-!
Configurations in JSON. Each member may be left out, and then has its standard value; so may each
side of the viewport.
-/

namespace SpringLayout

open Json

/-- The name of an initial layout. -/
def InitialLayout.toJson : InitialLayout → Json
  | .hints => .string "hints"
  | .staggered => .string "staggered"

/-- The initial layout of a name. -/
def InitialLayout.ofJson? : Json → Option InitialLayout
  | .string "hints" => some .hints
  | .string "staggered" => some .staggered
  | _ => none

/-- A viewport written down, with all its sides. -/
def Viewport.toJson (v : Viewport Float) : Json :=
  .object [
    ("left", .real v.left),
    ("top", .real v.top),
    ("right", .real v.right),
    ("bottom", .real v.bottom)]

/-- A viewport, with the standard place for each side that is not given. -/
def Viewport.ofJson? (j : Json) : Option (Viewport Float) := do
  let members ← j.members?
  let standard : Viewport Float := Viewport.standard
  return {
    left := ← optional members "left" number? standard.left
    top := ← optional members "top" number? standard.top
    right := ← optional members "right" number? standard.right
    bottom := ← optional members "bottom" number? standard.bottom }

/-- A configuration written down, with all its members. -/
def Config.toJson (c : Config Float) : Json :=
  .object [
    ("restLength", .real c.restLength),
    ("springStiffness", .real c.springStiffness),
    ("repulsion", .real c.repulsion),
    ("damping", .real c.damping),
    ("minForce", .real c.minForce),
    ("minDistance", .real c.minDistance),
    ("stepsPerFrame", ofWord c.stepsPerFrame),
    ("maxIterations", ofWord c.maxIterations),
    ("initialLayout", c.initialLayout.toJson),
    ("viewport", c.viewport.toJson)]

/-- A configuration, with the standard value for each member that is not given. -/
def Config.ofJson? (j : Json) : Option (Config Float) := do
  let members ← j.members?
  let standard : Config Float := Config.standard
  return {
    restLength := ← optional members "restLength" number? standard.restLength
    springStiffness := ← optional members "springStiffness" number? standard.springStiffness
    repulsion := ← optional members "repulsion" number? standard.repulsion
    damping := ← optional members "damping" number? standard.damping
    minForce := ← optional members "minForce" number? standard.minForce
    minDistance := ← optional members "minDistance" number? standard.minDistance
    stepsPerFrame := ← optional members "stepsPerFrame" word? standard.stepsPerFrame
    maxIterations := ← optional members "maxIterations" word? standard.maxIterations
    initialLayout := ← optional members "initialLayout" InitialLayout.ofJson? standard.initialLayout
    viewport := ← optional members "viewport" Viewport.ofJson? standard.viewport }

end SpringLayout
