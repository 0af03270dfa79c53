import Mathlib.Algebra.Group.Nat.Defs
import Mathlib.Order.Bounds.Defs
import SpringLayout.Proofs.Simulation.Iteration
import SpringLayout.Scalar.Binary64

/-!
Settling under a limit.

`Simulation.Ending` says by the plain iteration alone how steps under a limit end: with the first
settled step, or with the limit where no step up to it is settled. `Simulation.settleOn` settles
under one limit and, if that ended it, goes on under another. Main statement: every valid state
settles with the ending of its limit, and two limits after one another are as good as their sum
(`Simulation.settles_first`).
-/

namespace SpringLayout

/-- The report with `before` steps taken earlier. -/
def Report.after (before : Nat) (r : Report) : Report :=
  { r with iterations := before + r.iterations }

namespace Simulation

variable {α : Type} [PolarScalar α] {s : Simulation α}

/-! ### The ending by the iteration -/

/-- The report of steps from `s` that end with the first settled one, and with the limit where there
is none up to it. -/
inductive Ending (c : Config α) (s : Simulation α) (limit : Nat) : Report → Prop where
  | atRest {t : Nat} : IsLeast {k | 1 ≤ k ∧ k ≤ limit ∧ s.SettlesAt c k} t →
      Ending c s limit ⟨t, true⟩
  | atLimit : (∀ t, 1 ≤ t → t ≤ limit → ¬ s.SettlesAt c t) → Ending c s limit ⟨limit, false⟩

theorem Advance.ending {c : Config α} {limit steps : Nat} {settled : Bool}
    (advance : Advance c s limit steps settled) : Ending c s limit ⟨steps, settled⟩ := by
  cases settled with
  | true =>
      have settles : s.SettlesAt c steps := advance.settled_iff.mp rfl
      refine .atRest ⟨⟨settles.pos, advance.steps_le, settles⟩, ?_⟩
      rintro t ⟨-, -, settles_t⟩
      exact Nat.le_of_not_lt fun earlier => advance.unsettled t earlier settles_t
  | false =>
      obtain rfl : steps = limit := advance.limit_of_unsettled rfl
      refine .atLimit fun t _ within => ?_
      rcases Nat.lt_or_eq_of_le within with earlier | rfl
      · exact advance.unsettled t earlier
      · exact mt advance.settled_iff.mpr Bool.false_ne_true

theorem settle_of_valid (c : Config α) (valid : s.Valid) (limit : UInt32) :
    ∃ report, s.settle c limit = (.ok report, s.stepped c report.iterations) ∧
      Ending c s limit.toNat report := by
  obtain ⟨steps, settled, run, advance⟩ := advance_of_valid c valid 0 limit.toNat
  rw [Nat.zero_add] at run
  exact ⟨⟨steps, settled⟩, run, advance.ending⟩

/-! ### One limit after another -/

/-- Steps taken before are counted, and play no other part. -/
theorem advance_add_taken (c : Config α) (before taken limit : Nat) (s : Simulation α) :
    s.advance c (before + taken) limit =
      ((s.advance c taken limit).1.map (Report.after before), (s.advance c taken limit).2) := by
  induction limit generalizing s taken with
  | zero => rfl
  | succ limit ih =>
      rw [advance, advance]
      cases s.step c with
      | mk answer after =>
          cases answer with
          | error e => rfl
          | ok outcome =>
              dsimp only
              cases outcome.settled with
              | true => rfl
              | false => exact ih (taken + 1) after

/-- What steps in a row have left, with up to `limit` more of them if the last was not settled. -/
def carryOn (c : Config α) (limit : Nat) :
    Attempt (Simulation α) Report → Attempt (Simulation α) Report
  | (.error e, after) => (.error e, after)
  | (.ok report, after) =>
    if report.settled then (.ok report, after) else after.advance c report.iterations limit

/-- A limit may be split anywhere. -/
theorem advance_add_limit (c : Config α) (taken first second : Nat) (s : Simulation α) :
    s.advance c taken (first + second) = carryOn c second (s.advance c taken first) := by
  -- Both sides take the same first step; after it the rest of `first` is split for the state left.
  induction first generalizing s taken with
  | zero =>
      rw [Nat.zero_add]
      rfl
  | succ first ih =>
      rw [Nat.succ_add, advance, advance]
      cases s.step c with
      | mk answer after =>
          cases answer with
          | error e => rfl
          | ok outcome =>
              dsimp only
              cases ends : outcome.settled with
              | true => rfl
              | false => exact ih (taken + 1) after

/-- Settles under `first` and, where that ended it, goes on under `second`. The steps are reported
together. -/
def settleOn (c : Config α) (first second : UInt32) (s : Simulation α) :
    Attempt (Simulation α) Report :=
  match s.settle c first with
  | (.error e, after) => (.error e, after)
  | (.ok report, after) =>
    if report.settled then (.ok report, after)
    else
      let (answer, last) := after.settle c second
      (answer.map (Report.after report.iterations), last)

/-- Of any state, valid or not. -/
theorem settleOn_eq_settle (c : Config α) {first second : UInt32}
    (fits : first.toNat + second.toNat < 2 ^ 32) (s : Simulation α) :
    s.settleOn c first second = s.settle c (first + second) := by
  have sum : (first + second).toNat = first.toNat + second.toNat := by
    rw [UInt32.toNat_add, Nat.mod_eq_of_lt fits]
  rw [settleOn, settle, settle, sum, advance_add_limit]
  cases s.advance c 0 first.toNat with
  | mk answer after =>
      cases answer with
      | error e => rfl
      | ok report =>
          dsimp only [carryOn]
          cases report.settled with
          | true => rfl
          | false => exact (advance_add_taken c report.iterations 0 second.toNat after).symm

/-! ### Settling valid states -/

/-- How a state settles, whatever the limit. -/
structure SettlesFirst (c : Config α) (s : Simulation α) : Prop where
  /-- No step of the iteration is refused. -/
  outcome : ∀ t, ∃ outcome, ((s.stepped c t).step c).1 = .ok outcome
  /-- The state left is that after as many plain steps as are reported. -/
  ends : ∀ limit : UInt32, ∃ report,
    s.settle c limit = (.ok report, s.stepped c report.iterations) ∧
      Ending c s limit.toNat report
  edges : ∀ limit : UInt32, (s.settle c limit).2.edges = s.edges
  /-- Two limits after one another are as good as their sum. -/
  splits : ∀ first second : UInt32, first.toNat + second.toNat < 2 ^ 32 →
    s.settleOn c first second = s.settle c (first + second)

/-- Every valid state settles with the first settled step of its iteration or at the limit. -/
theorem settles_first (c : Config α) (valid : s.Valid) : SettlesFirst c s where
  outcome t := by
    obtain ⟨outcome, taken⟩ := step_ok c (valid.stepped c t)
    exact ⟨outcome, congrArg Prod.fst taken⟩
  ends := settle_of_valid c valid
  edges limit := by
    obtain ⟨report, ends, -⟩ := settle_of_valid c valid limit
    rw [ends, edges_stepped]
  splits _ _ fits := settleOn_eq_settle c fits s

/-- Two vertices far apart on one spring. -/
def distantPair : Simulation Float := .atRest #[⟨0, 0⟩, ⟨1000, 0⟩] [⟨⟨0⟩, ⟨1⟩⟩]

theorem settles_first_distantPair :
    distantPair.Valid ∧ SettlesFirst Config.standard distantPair :=
  ⟨by decide, settles_first Config.standard (by decide)⟩

end Simulation

end SpringLayout
