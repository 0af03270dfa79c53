/-!
Flags by which a run can be told to stop. A flag is issued lowered and can be raised, for good. Its
holders share it through handles: whoever holds a copy of a handle sees the flag raised by any
other.
-/

namespace SpringLayout

/-- A handle on a stop flag. Equal handles are on the same flag. -/
structure StopFlag where
  number : Nat
deriving DecidableEq, Repr

/-- The flags issued so far, each raised or not. -/
structure StopFlags where
  raised : Array Bool
deriving Repr

namespace StopFlags

/-- No flag has been issued. -/
def empty : StopFlags := ⟨#[]⟩

/-- A new flag, lowered. -/
def issue (f : StopFlags) : StopFlag × StopFlags := (⟨f.raised.size⟩, ⟨f.raised.push false⟩)

/-- The flag has been raised. -/
def isRaised (f : StopFlags) (flag : StopFlag) : Bool := f.raised.getD flag.number false

/-- The flag is raised, and stays so. -/
def raise (f : StopFlags) (flag : StopFlag) : StopFlags :=
  ⟨f.raised.setIfInBounds flag.number true⟩

end StopFlags

end SpringLayout
