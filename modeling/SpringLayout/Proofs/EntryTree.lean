import SpringLayout.HitIndex
import SpringLayout.Proofs.Scalar.Order

/-!
What is relied on in a tree of entries.

A tree holds its entries in an order of its own, so it is known up to that order. What is put in is
there, removing takes out one entry equal to the given one, and no entry is nearer than the one
found. `EntryTree.Lawful` asks this as long as all entries are at places of some kind, such as the
finite ones or those without a NaN; searches are relied on among finite places only.

`EntryTree.Sparing` asks less: a tree need not find what is to be removed, but it takes out nothing
else.
-/

namespace SpringLayout

/-! ### Kinds of places -/

section Places

variable {α : Type} [Scalar α]

/-- Both coordinates are finite. -/
abbrev Vec.Finite (p : Vec α) : Prop := p.isFinite = true

/-- Neither coordinate is a NaN. -/
abbrev Vec.Numeric (p : Vec α) : Prop := Scalar.isNaN p.x = false ∧ Scalar.isNaN p.y = false

theorem Vec.beq_self_iff {p : Vec α} : (p == p) = true ↔ p.Numeric := by
  rw [Numeric, Scalar.isNaN, Scalar.isNaN, Bool.not_eq_false', Bool.not_eq_false',
    ← Bool.and_eq_true_iff]
  rfl

theorem HitEntry.beq_iff {e f : HitEntry α} :
    (e == f) = true ↔ e.vertex = f.vertex ∧ (e.place == f.place) = true := by
  change (e.vertex == f.vertex && e.place == f.place) = true ↔ _
  rw [Bool.and_eq_true_iff, beq_iff_eq]

end Places

/-! ### The nearest entry -/

section Nearest

variable {α : Type} [Scalar α] {p : Vec α}

/-- No entry is nearer to `p` than `e`, which is one of them. -/
structure IsNearest (p : Vec α) (entries : List (HitEntry α)) (e : HitEntry α) : Prop where
  listed : e ∈ entries
  least : ∀ f ∈ entries, e.distSq p ≤ f.distSq p

theorem HitEntry.isNaN_distSq [OrderedScalar α] {e : HitEntry α} (finite : e.place.isFinite = true)
    (pointed : p.isFinite = true) : Scalar.isNaN (e.distSq p) = false := by
  obtain ⟨x, y⟩ := Bool.and_eq_true_iff.mp finite
  obtain ⟨px, py⟩ := Bool.and_eq_true_iff.mp pointed
  exact OrderedScalar.isNaN_sq_add_sq (OrderedScalar.isNaN_sub x px) (OrderedScalar.isNaN_sub y py)

end Nearest

/-! ### Laws -/

namespace EntryTree

/-- All entries of the tree are at places that are admitted. -/
abbrev AllAt {α τ : Type} [EntryTree α τ] (Admits : Vec α → Prop) (t : τ) : Prop :=
  ∀ e ∈ entries t, Admits e.place

/-- As long as all places are admitted ones, nothing gets in but what is put in, and nothing gets
out but an entry equal to the one to be removed. -/
structure Sparing {α : Type} [Scalar α] (τ : Type) [EntryTree α τ] (Admits : Vec α → Prop) :
    Prop where
  insert : ∀ {e : HitEntry α} {t : τ}, Admits e.place → AllAt Admits t →
    (entries (insert e t)).Perm (e :: entries t)
  /-- Of several entries equal to the given one, only one is taken out. -/
  remove_some : ∀ {e f : HitEntry α} {t rest : τ}, AllAt Admits t → remove e t = (some f, rest) →
    (f == e) = true ∧ (entries t).Perm (f :: entries rest)
  /-- There may still be an entry equal to the given one. -/
  remove_none : ∀ {e : HitEntry α} {t rest : τ}, AllAt Admits t → remove e t = (none, rest) →
    (entries rest).Perm (entries t)

/-- What is relied on as long as all places are admitted ones. -/
structure Lawful {α : Type} [Scalar α] (τ : Type) [EntryTree α τ] (Admits : Vec α → Prop) :
    Prop extends Sparing τ Admits where
  empty : entries (empty : τ) = []
  load : ∀ {es : List (HitEntry α)}, (∀ e ∈ es, Admits e.place) → (entries (load es : τ)).Perm es
  /-- What is not found is not there. -/
  absent : ∀ {e : HitEntry α} {t rest : τ}, AllAt Admits t → remove e t = (none, rest) →
    ∀ f ∈ entries t, ¬ (f == e) = true
  nearest_some : ∀ {p : Vec α} {e : HitEntry α} {t : τ}, AllAt Vec.Finite t → p.Finite →
    nearest? p t = some e →
    e ∈ entries t ∧ ∀ f ∈ entries t, ¬ f.distSq p < e.distSq p
  nearest_none : ∀ {p : Vec α} {t : τ}, AllAt Vec.Finite t → p.Finite →
    nearest? p t = none → entries t = []
  size : ∀ t : τ, size t = (entries t).length

end EntryTree

end SpringLayout
