import SpringLayout.Simulation.State

/-!
Stepping until at rest. Frames and whole runs are both made of `advance`, which stops at the first
settled step and never takes more steps than its limit.
-/

namespace SpringLayout

/-- How a number of steps in a row ended. -/
structure Report where
  /-- The steps taken. -/
  iterations : Nat
  /-- The last of them was settled; otherwise the limit ended them. -/
  settled : Bool
deriving DecidableEq, Repr

namespace Simulation

variable {α : Type} [PolarScalar α]

/-- Steps until one is settled, and at most `limit` of them, when `taken` were taken before. A
refused step ends it in the state reached so far. -/
def advance (c : Config α) (taken : Nat) :
    (limit : Nat) → Simulation α → Attempt (Simulation α) Report
  | 0, s => (.ok ⟨taken, false⟩, s)
  | limit + 1, s =>
    match s.step c with
    | (.error e, s) => (.error e, s)
    | (.ok outcome, s) =>
      if outcome.settled then (.ok ⟨taken + 1, true⟩, s)
      else advance c (taken + 1) limit s

/-- Steps until one is settled, and at most `limit` of them. -/
def settle (c : Config α) (limit : UInt32) (s : Simulation α) : Attempt (Simulation α) Report :=
  s.advance c 0 limit.toNat

/-- Steps until one is settled, and at most as many as are configured. -/
def run (c : Config α) (s : Simulation α) : Attempt (Simulation α) Report :=
  s.settle c c.maxIterations

end Simulation

end SpringLayout
