import SpringLayout.Proofs.Simulation.Iteration

/-!
States that no step can be taken of.

Whether a step is refused, and for what cause, is told by `Simulation.validate` beforehand
(`Simulation.map_step`), and no step changes what the check looks at (`Simulation.validate_step`).
So of steps in a row either the first is refused or none is, and a row that is refused has moved
nothing. `RefusedAs` says this of anything that moves a simulation; `Simulation.refusedAs_settle` is
its main instance here.
-/

namespace SpringLayout

/-- An attempt on `x`, which holds the simulation `s`, is refused where it is `asked` to move `s`
and the parts of `s` do not fit together. The cause is the one that the check of the parts gives,
and `x` is left as it is. -/
structure RefusedAs {α σ β : Type} (asked : Prop) (s : Simulation α) (x : σ)
    (attempt : Attempt σ β) : Prop where
  error_iff : ∀ e, attempt.1 = .error e ↔ asked ∧ s.validate = .error e
  intact : ∀ e, attempt.1 = .error e → attempt.2 = x

namespace RefusedAs

variable {α σ β : Type} {asked : Prop} {s : Simulation α} {x : σ} {attempt : Attempt σ β}

/-- What cannot be refused is not. -/
theorem of_ok {b : β} (answered : attempt.1 = .ok b) (fits : asked → s.validate = .ok ()) :
    RefusedAs asked s x attempt := by
  constructor
  · intro e
    rw [answered]
    constructor
    · intro refused
      cases refused
    · rintro ⟨asks, refused⟩
      rw [fits asks] at refused
      cases refused
  · intro e refused
    rw [answered] at refused
    cases refused

theorem of_error {e : LayoutError} (asks : asked) (misfit : s.validate = .error e)
    (refused : attempt = (.error e, x)) : RefusedAs asked s x attempt := by
  subst refused
  constructor
  · intro e'
    rw [misfit]
    constructor
    · rintro ⟨⟩
      exact ⟨asks, rfl⟩
    · rintro ⟨-, ⟨⟩⟩
      rfl
  · intro e' _
    rfl

/-- What is asked to move and is not refused holds a state whose parts fit together. -/
theorem fits_of_ok (refusedAs : RefusedAs asked s x attempt) {b : β}
    (answered : attempt.1 = .ok b) (asks : asked) : s.validate = .ok () := by
  cases checks : s.validate with
  | ok fits => rfl
  | error e =>
      have refused := (refusedAs.error_iff e).mpr ⟨asks, checks⟩
      rw [answered] at refused
      cases refused

end RefusedAs

namespace Simulation

section Checking

variable {α : Type} {s : Simulation α}

theorem validate_of_valid (valid : s.Valid) : s.validate = .ok () := by
  rw [validate, system?_of_valid valid]
  rfl

theorem validate_of_not_valid (invalid : ¬ s.Valid) : ∃ e, s.validate = .error e := by
  obtain ⟨e, refused⟩ := system?_of_not_valid invalid
  refine ⟨e, ?_⟩
  rw [validate, refused]
  rfl

end Checking

section Motion

variable {α : Type} [PolarScalar α] {s : Simulation α}

/-- A step is refused just as the parts are when they are checked, and for the same cause. -/
theorem map_step (c : Config α) (s : Simulation α) :
    (s.step c).1.map (fun _ => ()) = s.validate := by
  unfold step validate
  cases s.system? with
  | error e => rfl
  | ok system => rfl

theorem step_of_misfit (c : Config α) {e : LayoutError} (misfit : s.validate = .error e) :
    s.step c = (.error e, s) := by
  unfold step
  unfold validate at misfit
  cases read : s.system? with
  | error e' =>
      rw [read] at misfit
      cases misfit
      rfl
  | ok system =>
      rw [read] at misfit
      cases misfit

theorem step_eq_error_iff (c : Config α) (e : LayoutError) :
    (s.step c).1 = .error e ↔ s.validate = .error e := by
  constructor
  · intro refused
    rw [← map_step c s, refused]
    rfl
  · intro misfit
    rw [step_of_misfit c misfit]

/-- No step, refused or not, changes what the check of the parts looks at. -/
theorem validate_step (c : Config α) (s : Simulation α) :
    (s.step c).2.validate = s.validate := by
  by_cases valid : s.Valid
  · rw [validate_of_valid valid, validate_of_valid (valid.step c)]
  · obtain ⟨e, misfit⟩ := validate_of_not_valid valid
    rw [step_of_misfit c misfit]

theorem validate_stepped (c : Config α) (s : Simulation α) (t : Nat) :
    (s.stepped c t).validate = s.validate := by
  induction t with
  | zero => rfl
  | succ t ih => rw [stepped, validate_step, ih]

/-- After a step that was taken, no step is refused. -/
theorem step_stepped_ne_error {c : Config α} {outcome : StepOutcome α}
    (taken : (s.step c).1 = .ok outcome) (t : Nat) (e : LayoutError) :
    ((s.stepped c t).step c).1 ≠ .error e := by
  intro refused
  rw [step_eq_error_iff, validate_stepped, ← map_step c s, taken] at refused
  cases refused

/-- Steps in a row leave the check of the parts as it was. -/
theorem validate_advance (c : Config α) (taken limit : Nat) (s : Simulation α) :
    (s.advance c taken limit).2.validate = s.validate := by
  induction limit generalizing s taken with
  | zero => rfl
  | succ limit ih =>
      have kept := validate_step c s
      rw [advance]
      split
      · next stepped => rwa [stepped] at kept
      · next stepped =>
          rw [stepped] at kept
          split
          · exact kept
          · exact (ih _ _).trans kept

/-- The first step in a row is the one that is refused. -/
theorem advance_of_misfit (c : Config α) (taken : Nat) {limit : Nat} {e : LayoutError}
    (misfit : s.validate = .error e) (pos : 0 < limit) :
    s.advance c taken limit = (.error e, s) := by
  cases limit with
  | zero => exact absurd pos (Nat.lt_irrefl 0)
  | succ limit => rw [advance, step_of_misfit c misfit]

theorem refusedAs_advance (c : Config α) (s : Simulation α) (taken limit : Nat) :
    RefusedAs (0 < limit) s s (s.advance c taken limit) := by
  by_cases valid : s.Valid
  · obtain ⟨steps, settled, run, -⟩ := advance_of_valid c valid taken limit
    apply RefusedAs.of_ok
    · rw [run]
    · intro _
      exact validate_of_valid valid
  · obtain ⟨e, misfit⟩ := validate_of_not_valid valid
    rcases Nat.eq_zero_or_pos limit with rfl | pos
    · apply RefusedAs.of_ok
      · rfl
      · intro asked
        exact absurd asked (Nat.lt_irrefl 0)
    · exact .of_error pos misfit (advance_of_misfit c taken misfit pos)

/-- A state is settled, or refused without having moved. -/
theorem refusedAs_settle (c : Config α) (s : Simulation α) (limit : UInt32) :
    RefusedAs (0 < limit) s s (s.settle c limit) := by
  rw [UInt32.lt_iff_toNat_lt]
  exact refusedAs_advance c s 0 limit.toNat

end Motion

end Simulation

end SpringLayout
