import SpringLayout.Proofs.Simulation.Valid

/-!
Steps in a row.

`Simulation.stepped` is the plain iteration of the step, with no regard to whether a step settled,
and `Simulation.SettlesAt` says which of its steps are settled. Everything that moves a simulation
goes through `Simulation.advance`, and `Simulation.advance_of_valid` says what that is in terms of
the plain iteration: it takes a first part of it that ends with the first settled step or at the
limit.
-/

namespace SpringLayout

namespace Simulation

variable {α : Type} [PolarScalar α] {s : Simulation α}

/-- The state after `t` steps in a row. -/
def stepped (c : Config α) (s : Simulation α) : Nat → Simulation α
  | 0 => s
  | t + 1 => ((s.stepped c t).step c).2

/-- Step number `t` in a row, counted from one, is taken and is settled. -/
def SettlesAt (c : Config α) (s : Simulation α) : Nat → Prop
  | 0 => False
  | t + 1 => ∃ outcome, ((s.stepped c t).step c).1 = .ok outcome ∧ outcome.settled = true

theorem stepped_add (c : Config α) (s : Simulation α) (m n : Nat) :
    s.stepped c (m + n) = (s.stepped c m).stepped c n := by
  induction n with
  | zero => rfl
  | succ n ih =>
      rw [Nat.add_succ, stepped, ih, stepped]

/-- After `m` steps of which the last is unsettled, the rest of the iteration settles where the
whole does. -/
theorem settlesAt_stepped {c : Config α} {m : Nat} (unsettled : ¬ s.SettlesAt c m) (t : Nat) :
    (s.stepped c m).SettlesAt c t ↔ s.SettlesAt c (m + t) := by
  cases t with
  | zero => exact iff_of_false id unsettled
  | succ t =>
      change (∃ outcome, (((s.stepped c m).stepped c t).step c).1 = .ok outcome ∧ _) ↔
        ∃ outcome, ((s.stepped c (m + t)).step c).1 = .ok outcome ∧ _
      rw [stepped_add]

/-- Unsettled steps after unsettled steps are unsettled in one row. -/
theorem unsettled_add {c : Config α} {m n : Nat} (before : ∀ t < m, ¬ s.SettlesAt c t)
    (unsettled : ¬ s.SettlesAt c m) (after : ∀ t < n, ¬ (s.stepped c m).SettlesAt c t) :
    ∀ t < m + n, ¬ s.SettlesAt c t := by
  intro t less
  rcases Nat.lt_or_ge t m with early | late
  · exact before t early
  · obtain ⟨k, rfl⟩ := Nat.exists_eq_add_of_le late
    rw [← settlesAt_stepped unsettled]
    exact after k (by omega)

theorem SettlesAt.pos {c : Config α} {t : Nat} (settles : s.SettlesAt c t) : 0 < t := by
  cases t with
  | zero => exact settles.elim
  | succ t => exact Nat.succ_pos t

theorem edges_stepped (c : Config α) (s : Simulation α) (t : Nat) :
    (s.stepped c t).edges = s.edges := by
  induction t with
  | zero => rfl
  | succ t ih => rw [stepped, edges_step, ih]

theorem positions_size_stepped (c : Config α) (s : Simulation α) (t : Nat) :
    (s.stepped c t).positions.size = s.positions.size := by
  induction t with
  | zero => rfl
  | succ t ih => rw [stepped, positions_size_step, ih]

theorem Valid.stepped (valid : s.Valid) (c : Config α) (t : Nat) : (s.stepped c t).Valid := by
  induction t with
  | zero => exact valid
  | succ t ih => exact ih.step c

/-- What is known of some steps in a row that end at the first settled one or at a limit: how many
they are, and whether the last is settled. -/
structure Advance (c : Config α) (s : Simulation α) (limit steps : Nat) (settled : Bool) :
    Prop where
  steps_le : steps ≤ limit
  /-- No step before the last is settled. -/
  unsettled : ∀ t < steps, ¬ s.SettlesAt c t
  settled_iff : settled = true ↔ s.SettlesAt c steps
  /-- Without a settled step the limit ends the steps. -/
  limit_of_unsettled : settled = false → steps = limit

theorem Advance.pos {c : Config α} {limit steps : Nat} {settled : Bool}
    (advance : Advance c s limit steps settled) (pos : 0 < limit) : 0 < steps := by
  cases settled with
  | false => rwa [advance.limit_of_unsettled rfl]
  | true => exact (advance.settled_iff.mp rfl).pos

/-- After unsettled steps, further steps make one longer row with them. -/
theorem Advance.trans {c : Config α} {limit limit' steps more : Nat} {settled : Bool}
    (first : Advance c s limit steps false)
    (rest : Advance c (s.stepped c steps) limit' more settled) :
    Advance c s (steps + limit') (steps + more) settled := by
  have unsettled : ¬ s.SettlesAt c steps := mt first.settled_iff.mpr Bool.false_ne_true
  refine ⟨Nat.add_le_add_left rest.steps_le steps, ?_, ?_, ?_⟩
  · exact unsettled_add first.unsettled unsettled rest.unsettled
  · rw [rest.settled_iff, settlesAt_stepped unsettled]
  · intro h
    rw [rest.limit_of_unsettled h]

/-- A valid state advances without refusal, to the state that as many plain steps reach. -/
theorem advance_of_valid (c : Config α) (valid : s.Valid) (taken limit : Nat) :
    ∃ steps settled,
      s.advance c taken limit = (.ok ⟨taken + steps, settled⟩, s.stepped c steps) ∧
        Advance c s limit steps settled := by
  induction limit generalizing s taken with
  | zero =>
      exact ⟨0, false, rfl, Nat.le_refl 0, fun t less => absurd less (Nat.not_lt_zero t),
        by simp [SettlesAt], fun _ => rfl⟩
  | succ limit ih =>
      obtain ⟨outcome, taken_one⟩ := step_ok c valid
      have settles_one : s.SettlesAt c 1 ↔ outcome.settled = true := by
        change (∃ o, (s.step c).1 = .ok o ∧ o.settled = true) ↔ _
        rw [taken_one]
        simp
      have before : ∀ t < 1, ¬ s.SettlesAt c t := by
        intro t less settles
        have pos := settles.pos
        omega
      rw [advance, taken_one]
      cases ends : outcome.settled with
      | true =>
          refine ⟨1, true, if_pos ends, by omega, before, ?_, ?_⟩
          · rw [settles_one, ends]
          · intro h
            cases h
      | false =>
          have first : Advance c s 1 1 false := by
            refine ⟨Nat.le_refl 1, before, ?_, fun _ => rfl⟩
            rw [settles_one, ends]
          obtain ⟨steps, settled, run, rest⟩ := ih (valid.step c) (taken + 1)
          refine ⟨1 + steps, settled, ?_, ?_⟩
          · rw [stepped_add, ← Nat.add_assoc]
            exact (if_neg (by simp [ends])).trans run
          · rw [Nat.add_comm limit]
            exact first.trans rest

end Simulation

end SpringLayout
