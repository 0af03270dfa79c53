import Mathlib.Data.List.Nodup
import SpringLayout.Proofs.EntryTree

/-!
What an index of places holds, and what it finds, over any tree of entries.

An index made of some points holds one entry for each (`HitIndex.entries_ofPoints`), and still does
when a vertex is moved away from the place where it is held, if that place is without a NaN
(`HitIndex.perm_relocate`). Wherever it is looked for, the entries of the other vertices stay
(`HitIndex.filter_relocate`).

A search within a radius finds an entry of least distance, and nothing only where no entry is within
the radius (`HitIndex.nearestWithin?_eq_some`, `HitIndex.nearestWithin?_eq_none_iff`).
-/

namespace SpringLayout

/-! ### Entries of points -/

namespace HitEntry

variable {α : Type} {points : Array (Vec α)}

theorem mem_ofPoints_iff {e : HitEntry α} :
    e ∈ ofPoints points ↔ points[e.vertex.index]? = some e.place := by
  obtain ⟨⟨i⟩, place⟩ := e
  simp only [ofPoints, List.mem_map, List.mem_zipIdx_iff_getElem?, Array.getElem?_toList]
  constructor
  · rintro ⟨⟨p, j⟩, found, same⟩
    cases same
    exact found
  · intro found
    exact ⟨(place, i), found, rfl⟩

theorem ofPoints_eq_mapIdx (points : Array (Vec α)) :
    ofPoints points = points.toList.mapIdx fun i p => ⟨⟨i⟩, p⟩ := by
  rw [List.mapIdx_eq_zipIdx_map, ofPoints]

/-- The places of the entries are the points. -/
theorem forall_place_ofPoints_iff {P : Vec α → Prop} :
    (∀ e ∈ ofPoints points, P e.place) ↔ ∀ p ∈ points, P p := by
  constructor
  · intro holds p mem
    obtain ⟨i, found⟩ := Array.mem_iff_getElem?.mp mem
    exact holds ⟨⟨i⟩, p⟩ (mem_ofPoints_iff.mpr found)
  · intro holds e mem
    exact holds e.place (Array.mem_of_getElem? (mem_ofPoints_iff.mp mem))

theorem map_vertex_ofPoints :
    (ofPoints points).map vertex = (List.range points.size).map VertexId.mk := by
  have numbers := List.zipIdx_map_snd 0 points.toList
  rw [List.range_eq_range', ← Array.length_toList, ← numbers, ofPoints, List.map_map, List.map_map]
  rfl

@[simp] theorem length_ofPoints : (ofPoints points).length = points.size := by
  simp [ofPoints]

/-- No vertex has two entries. -/
theorem nodup_ofPoints : ((ofPoints points).map vertex).Nodup := by
  rw [map_vertex_ofPoints]
  exact List.nodup_range.map fun _ _ => VertexId.mk.inj

/-- The point in the middle of others has its number among theirs. -/
theorem perm_ofPoints_append_cons (before after : List (Vec α)) (p : Vec α) :
    (ofPoints (before ++ p :: after).toArray).Perm
      (⟨⟨before.length⟩, p⟩ :: (ofPoints before.toArray ++
        (after.zipIdx (before.length + 1)).map fun (q, j) => ⟨⟨j⟩, q⟩)) := by
  simp only [ofPoints, List.zipIdx_append, List.map_append, List.zipIdx_cons, List.map_cons,
    Nat.zero_add]
  exact List.perm_middle

/-- Where one point is moved, the entries of the others stay. -/
theorem exists_perm_ofPoints {i : Nat} {source : Vec α} (found : points[i]? = some source) :
    ∃ others, (ofPoints points).Perm (⟨⟨i⟩, source⟩ :: others) ∧
      ∀ target, (ofPoints (points.setIfInBounds i target)).Perm (⟨⟨i⟩, target⟩ :: others) := by
  obtain ⟨points⟩ := points
  rw [List.getElem?_toArray] at found
  obtain ⟨inside, rfl⟩ := List.getElem?_eq_some_iff.mp found
  have first : (points.take i).length = i := List.length_take_of_le (Nat.le_of_lt inside)
  have split : points = points.take i ++ points[i] :: points.drop (i + 1) := by
    rw [← List.drop_eq_getElem_cons inside, List.take_append_drop]
  obtain ⟨others, moved⟩ : ∃ others, ∀ p : Vec α,
      (ofPoints (points.take i ++ p :: points.drop (i + 1)).toArray).Perm
        (⟨⟨i⟩, p⟩ :: others) := by
    have moved := perm_ofPoints_append_cons (points.take i) (points.drop (i + 1))
    rw [first] at moved
    exact ⟨_, moved⟩
  refine ⟨others, ?_, fun target => ?_⟩
  · have same := moved points[i]
    rwa [← split] at same
  · rw [List.setIfInBounds_toArray, List.set_eq_take_append_cons_drop, if_pos inside]
    exact moved target

end HitEntry

namespace HitIndex

/-! ### Moving a vertex -/

section Others

variable {α τ : Type} [Scalar α] [EntryTree α τ] {Admits : Vec α → Prop} {v : VertexId}
  {source target : Vec α}

/-- The entry that is taken out is one of the vertex that is moved. -/
theorem filter_remove (sparing : EntryTree.Sparing τ Admits) {t : τ}
    (all : EntryTree.AllAt Admits t) :
    ((EntryTree.entries (EntryTree.remove ⟨v, source⟩ t).2).filter (·.vertex ≠ v)).Perm
      ((EntryTree.entries t).filter (·.vertex ≠ v)) := by
  cases removed : EntryTree.remove ⟨v, source⟩ t with
  | mk taken rest =>
      cases taken with
      | none => exact (sparing.remove_none all removed).filter _
      | some e =>
          obtain ⟨equal, split⟩ := sparing.remove_some all removed
          have own : e.vertex = v := (HitEntry.beq_iff.mp equal).1
          have others := split.filter (·.vertex ≠ v)
          rw [List.filter_cons_of_neg (by simp [own])] at others
          exact others.symm

/-- What is left was there before. -/
theorem allAt_remove (sparing : EntryTree.Sparing τ Admits) {e : HitEntry α} {t : τ}
    (all : EntryTree.AllAt Admits t) : EntryTree.AllAt Admits (EntryTree.remove e t).2 := by
  cases removed : EntryTree.remove e t with
  | mk taken rest =>
      cases taken with
      | none => exact fun f listed => all f ((sparing.remove_none all removed).mem_iff.mp listed)
      | some g =>
          have split := (sparing.remove_some all removed).2
          exact fun f listed => all f (split.mem_iff.mpr (List.mem_cons_of_mem _ listed))

theorem entries_relocate (sparing : EntryTree.Sparing τ Admits) {x : HitIndex τ}
    (all : EntryTree.AllAt Admits x.tree) (v : VertexId) (source : Vec α)
    (admits : Admits target) :
    (x.relocate v source target).2.entries.Perm
      (⟨v, target⟩ :: EntryTree.entries (EntryTree.remove ⟨v, source⟩ x.tree).2) :=
  sparing.insert admits (allAt_remove sparing all)

/-- The entries of the other vertices stay. -/
theorem filter_relocate (sparing : EntryTree.Sparing τ Admits) {x : HitIndex τ}
    (all : EntryTree.AllAt Admits x.tree) (admits : Admits target) :
    ((x.relocate v source target).2.entries.filter (·.vertex ≠ v)).Perm
      (x.entries.filter (·.vertex ≠ v)) := by
  have put := (entries_relocate sparing all v source admits).filter (·.vertex ≠ v)
  rw [List.filter_cons_of_neg (by simp)] at put
  exact put.trans (filter_remove sparing all)

theorem mem_relocate (sparing : EntryTree.Sparing τ Admits) {x : HitIndex τ}
    (all : EntryTree.AllAt Admits x.tree) (admits : Admits target) :
    ⟨v, target⟩ ∈ (x.relocate v source target).2.entries :=
  (entries_relocate sparing all v source admits).mem_iff.mpr List.mem_cons_self

end Others

section Lawful

variable {α τ : Type} [Scalar α] [EntryTree α τ] {Admits : Vec α → Prop} {points : Array (Vec α)}

theorem entries_empty (lawful : EntryTree.Lawful τ Admits) : (empty : HitIndex τ).entries = [] :=
  lawful.empty

theorem entries_ofPoints (lawful : EntryTree.Lawful τ Admits) (admitted : ∀ p ∈ points, Admits p) :
    (ofPoints points : HitIndex τ).entries.Perm (HitEntry.ofPoints points) :=
  lawful.load (HitEntry.forall_place_ofPoints_iff.mpr admitted)

/-- A vertex is moved away from the place where it is held, and its entry goes along. -/
theorem perm_relocate (lawful : EntryTree.Lawful τ Admits) {x : HitIndex τ}
    (holds : x.entries.Perm (HitEntry.ofPoints points)) (admitted : ∀ p ∈ points, Admits p)
    {v : VertexId} {source target : Vec α} (found : points[v.index]? = some source)
    (numeric : source.Numeric) (admits : Admits target) :
    (x.relocate v source target).2.entries.Perm
      (HitEntry.ofPoints (points.setIfInBounds v.index target)) := by
  have all : EntryTree.AllAt Admits x.tree := fun e listed =>
    HitEntry.forall_place_ofPoints_iff.mpr admitted e (holds.mem_iff.mp listed)
  have listed : (⟨v, source⟩ : HitEntry α) ∈ x.entries :=
    holds.mem_iff.mpr (HitEntry.mem_ofPoints_iff.mpr found)
  obtain ⟨others, here, there⟩ := HitEntry.exists_perm_ofPoints found
  have put := entries_relocate lawful.toSparing all v source admits
  suffices kept : (EntryTree.entries (EntryTree.remove ⟨v, source⟩ x.tree).2).Perm others from
    put.trans ((kept.cons _).trans (there target).symm)
  cases removed : EntryTree.remove ⟨v, source⟩ x.tree with
  | mk taken rest =>
      cases taken with
      | none =>
          have equal : (⟨v, source⟩ : HitEntry α) == ⟨v, source⟩ :=
            HitEntry.beq_iff.mpr ⟨rfl, Vec.beq_self_iff.mpr numeric⟩
          exact absurd equal (lawful.absent all removed _ listed)
      | some e =>
          obtain ⟨equal, split⟩ := lawful.remove_some all removed
          -- The entry that is taken out is the vertex's own, there being no other of it.
          have own : e = ⟨v, source⟩ := by
            obtain ⟨rfl, -⟩ := HitEntry.beq_iff.mp equal
            have member := holds.mem_iff.mp (split.mem_iff.mpr List.mem_cons_self)
            rw [HitEntry.mem_ofPoints_iff, found] at member
            obtain ⟨w, place⟩ := e
            cases member
            rfl
          subst own
          exact (split.symm.trans (holds.trans here)).cons_inv

end Lawful

/-! ### Searches -/

section Searches

variable {α τ : Type} [Scalar α] [OrderedScalar α] [EntryTree α τ] {Admits : Vec α → Prop}
  {x : HitIndex τ} {p : Vec α} {radius : α} {v : VertexId}

theorem isNearest_of_nearest? (lawful : EntryTree.Lawful τ Admits)
    (finite : ∀ e ∈ x.entries, e.place.isFinite = true) (pointed : p.isFinite = true)
    {e : HitEntry α} (found : EntryTree.nearest? p x.tree = some e) : IsNearest p x.entries e := by
  obtain ⟨listed, none_nearer⟩ := lawful.nearest_some finite pointed found
  refine ⟨listed, fun f held => ?_⟩
  exact OrderedScalar.le_of_not_lt (HitEntry.isNaN_distSq (finite e listed) pointed)
    (HitEntry.isNaN_distSq (finite f held) pointed) (none_nearer f held)

theorem nearest?_eq_some (lawful : EntryTree.Lawful τ Admits)
    (finite : ∀ e ∈ x.entries, e.place.isFinite = true) (pointed : p.isFinite = true)
    (answered : x.nearest? p = some v) : ∃ e, IsNearest p x.entries e ∧ e.vertex = v := by
  obtain ⟨e, found, vertex⟩ := Option.map_eq_some_iff.mp answered
  exact ⟨e, isNearest_of_nearest? lawful finite pointed found, vertex⟩

theorem nearest?_eq_none_iff (lawful : EntryTree.Lawful τ Admits)
    (finite : ∀ e ∈ x.entries, e.place.isFinite = true) (pointed : p.isFinite = true) :
    x.nearest? p = none ↔ x.entries = [] := by
  rw [nearest?, Option.map_eq_none_iff]
  constructor
  · exact lawful.nearest_none finite pointed
  · intro nothing
    cases found : EntryTree.nearest? p x.tree with
    | none => rfl
    | some e =>
        have listed := (isNearest_of_nearest? lawful finite pointed found).listed
        rw [nothing] at listed
        exact absurd listed List.not_mem_nil

/-- What is found within a radius is within it, and no entry is nearer. -/
theorem nearestWithin?_eq_some (lawful : EntryTree.Lawful τ Admits)
    (finite : ∀ e ∈ x.entries, e.place.isFinite = true) (pointed : p.isFinite = true)
    (answered : x.nearestWithin? p radius = some v) :
    ∃ e, IsNearest p x.entries e ∧ e.vertex = v ∧ e.distSq p ≤ radius * radius := by
  obtain ⟨e, kept, vertex⟩ := Option.map_eq_some_iff.mp answered
  obtain ⟨found, within⟩ := Option.filter_eq_some_iff.mp kept
  exact ⟨e, isNearest_of_nearest? lawful finite pointed found, vertex, of_decide_eq_true within⟩

/-- Nothing is found within a radius only where no entry is within it. -/
theorem nearestWithin?_eq_none_iff (lawful : EntryTree.Lawful τ Admits)
    (finite : ∀ e ∈ x.entries, e.place.isFinite = true) (pointed : p.isFinite = true) :
    x.nearestWithin? p radius = none ↔ ∀ e ∈ x.entries, ¬ e.distSq p ≤ radius * radius := by
  rw [nearestWithin?, Option.map_eq_none_iff]
  cases found : EntryTree.nearest? p x.tree with
  | none =>
      have nothing : x.entries = [] := lawful.nearest_none finite pointed found
      simp [nothing]
  | some e =>
      have nearest := isNearest_of_nearest? lawful finite pointed found
      simp only [Option.filter_eq_none_iff, Option.some.injEq, forall_eq', decide_eq_true_eq]
      constructor
      · intro beyond f listed within
        exact beyond (OrderedScalar.le_trans (nearest.least f listed) within)
      · intro beyond
        exact beyond e nearest.listed

end Searches

end HitIndex

end SpringLayout
