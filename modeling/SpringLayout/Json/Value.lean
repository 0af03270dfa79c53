/-!
JSON values, and reading parts of them.

A number is an integer if it was written without fraction and exponent, and otherwise the
binary64 number nearest to what was written. Its text is not dealt with here; a tree that holds an
infinity or a NaN has none. Readers answer `none` for a value of the wrong kind; `null`
is of no kind that a reader asks for. Members that no reader asks for are passed over.
-/

namespace SpringLayout

/-- A JSON value. The members of an object keep their order, which no reader looks at. -/
inductive Json where
  | null
  | bool (b : Bool)
  | integer (n : Int)
  | real (x : Float)
  | string (s : String)
  | array (items : List Json)
  | object (members : List (String × Json))
deriving Repr, Inhabited

namespace Json

/-- Any number; an integer is rounded to the nearest binary64 number. -/
def number? : Json → Option Float
  | .integer n => some (Float.ofInt n)
  | .real x => some x
  | _ => none

/-- An integer from 0 to `2³² - 1`. -/
def word? : Json → Option UInt32
  | .integer n =>
    if 0 ≤ n ∧ n < 4294967296 then some (UInt32.ofNat n.toNat) else none
  | _ => none

/-- A truth value. -/
def bool? : Json → Option Bool
  | .bool b => some b
  | _ => none

/-- A string. -/
def string? : Json → Option String
  | .string s => some s
  | _ => none

/-- An array whose items can all be read. -/
def list? {β : Type} (item? : Json → Option β) : Json → Option (List β)
  | .array items => items.mapM item?
  | _ => none

/-- The members of an object, in the order in which they stand. -/
def members? : Json → Option (List (String × Json))
  | .object members => some members
  | _ => none

/-- The member `key`, which must be there. -/
def required {β : Type} (members : List (String × Json)) (key : String) (read : Json → Option β) :
    Option β :=
  (members.lookup key).bind read

/-- The member `key`, or `absent` where there is none. One that cannot be read is no absent
one. -/
def optional {β : Type} (members : List (String × Json)) (key : String) (read : Json → Option β)
    (absent : β) : Option β :=
  match members.lookup key with
  | none => some absent
  | some v => read v

/-- A word written down. -/
def ofWord (w : UInt32) : Json := .integer w.toNat

end Json

end SpringLayout
