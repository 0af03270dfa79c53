import SpringLayout.Proofs.EntryList
import SpringLayout.Proofs.HitIndex
import SpringLayout.Proofs.Session.Exchange
import SpringLayout.Proofs.Session.Representation

/-!
What can be hit is what is displayed, over any tree that is lawful without NaNs.

The index of a session has an entry for each vertex, at the place where the vertex is displayed
(`Session.Mirrors`). A move by hand keeps it so, unless a NaN is displayed: that equals nothing, so
the entry there may not be found again and then stays behind. Showing all vertices anew makes up for
it. So the index has one entry for each vertex unless a NaN was displayed since, by which the index
is `Spoilt` (`Session.index_count_of_unspoilt`); then it can have more
(`Session.index_outgrows_display`).

As long as no NaN is displayed, a pick answers a vertex displayed nearest
(`Session.hitsDisplay_of_numeric`).
-/

namespace SpringLayout

/-! ### When all vertices are shown anew -/

/-- Whatever was displayed before, nothing is left of it. -/
def Happening.Renews {α : Type} : Happening α → Prop
  | .loaded _ => True
  | .cleared => True
  | .shown => True
  | _ => False

instance {α : Type} (h : Happening α) : Decidable h.Renews :=
  match h with
  | .loaded _ => inferInstanceAs (Decidable True)
  | .cleared => inferInstanceAs (Decidable True)
  | .shown => inferInstanceAs (Decidable True)
  | .nothing => inferInstanceAs (Decidable False)
  | .configured _ => inferInstanceAs (Decidable False)
  | .moved _ _ => inferInstanceAs (Decidable False)

section Spoiling

variable {α γ τ : Type}

/-- Whatever was displayed before the exchange, nothing is left of it. -/
abbrev Exchange.Renews (x : Exchange α γ τ) : Prop := (Happening.of x.command x.answer).Renews

variable [Scalar α]

/-- A NaN was displayed, and since then the vertices were not shown anew. -/
def Spoilt (xs : List (Exchange α γ τ)) : Prop :=
  ∃ before x since, xs = before ++ x :: since ∧ (∃ place ∈ x.left.display, ¬ place.Numeric) ∧
    ∀ y ∈ since, ¬ y.Renews

theorem not_spoilt_nil : ¬ Spoilt ([] : List (Exchange α γ τ)) := by
  rintro ⟨before, x, since, split, -⟩
  exact absurd split (by simp)

theorem spoilt_cons_iff {x : Exchange α γ τ} {rest : List (Exchange α γ τ)} :
    Spoilt (x :: rest) ↔
      ((∃ place ∈ x.left.display, ¬ place.Numeric) ∧ ∀ y ∈ rest, ¬ y.Renews) ∨ Spoilt rest := by
  constructor
  · rintro ⟨before, y, since, split, shown, stays⟩
    cases before with
    | nil =>
        cases split
        exact .inl ⟨shown, stays⟩
    | cons first before =>
        cases split
        exact .inr ⟨before, y, since, rfl, shown, stays⟩
  · rintro (⟨shown, stays⟩ | ⟨before, y, since, rfl, shown, stays⟩)
    · exact ⟨[], x, rest, rfl, shown, stays⟩
    · exact ⟨x :: before, y, since, rfl, shown, stays⟩

instance decidableSpoilt : (xs : List (Exchange α γ τ)) → Decidable (Spoilt xs)
  | [] => .isFalse not_spoilt_nil
  | _ :: rest =>
    have := decidableSpoilt rest
    decidable_of_iff _ spoilt_cons_iff.symm

/-- Where no NaN was ever displayed, none spoils anything. -/
theorem not_spoilt_of_numeric {xs : List (Exchange α γ τ)}
    (numeric : ∀ x ∈ xs, ∀ place ∈ x.left.display, place.Numeric) : ¬ Spoilt xs := by
  rintro ⟨before, x, since, rfl, ⟨place, shown, astray⟩, -⟩
  exact astray (numeric x (by simp) place shown)

end Spoiling

namespace Session

/-! ### An index like the display -/

section Mirror

variable {α γ τ : Type} [Scalar α] [EntryTree α τ] {s : Session α γ τ}

/-- No NaN is displayed, and the index has an entry for each vertex displayed and no other. -/
structure Mirrors (s : Session α γ τ) : Prop where
  numeric : ∀ place ∈ s.display, place.Numeric
  entries : s.index.entries.Perm (HitEntry.ofPoints s.display)

theorem Mirrors.mem_entries_iff (mirrors : s.Mirrors) (e : HitEntry α) :
    e ∈ s.index.entries ↔ s.display[e.vertex.index]? = some e.place :=
  mirrors.entries.mem_iff.trans HitEntry.mem_ofPoints_iff

theorem Mirrors.forall_place_iff (mirrors : s.Mirrors) (P : Vec α → Prop) :
    (∀ e ∈ s.index.entries, P e.place) ↔ ∀ place ∈ s.display, P place := by
  simp only [mirrors.entries.mem_iff]
  exact HitEntry.forall_place_ofPoints_iff

/-- The entries are of all vertices, one of each. -/
theorem Mirrors.map_vertex (mirrors : s.Mirrors) :
    (s.index.entries.map HitEntry.vertex).Perm
      ((List.range s.display.size).map VertexId.mk) := by
  rw [← HitEntry.map_vertex_ofPoints]
  exact mirrors.entries.map _

variable (tree : EntryTree.Lawful τ (Vec.Numeric (α := α)))

include tree

theorem Mirrors.index_size (mirrors : s.Mirrors) : s.index.size = s.display.size := by
  rw [HitIndex.size, tree.size]
  exact mirrors.entries.length_eq.trans HitEntry.length_ofPoints

theorem mirrors_publish {places : Array (Vec α)} (numeric : ∀ place ∈ places, place.Numeric)
    (s : Session α γ τ) : (s.publish places).Mirrors :=
  ⟨numeric, HitIndex.entries_ofPoints tree numeric⟩

theorem mirrors_of_empty (display : s.display = #[]) (index : s.index = HitIndex.empty) :
    s.Mirrors := by
  constructor
  · rw [display]
    exact nofun
  · rw [display, index, HitIndex.entries_empty tree]
    exact .nil

/-- A vertex that is displayed at a number is found where it was, and goes along. -/
theorem Mirrors.moveVertex [Multigraph γ] {after : Session α γ τ} (mirrors : s.Mirrors)
    {v : VertexId} {target : Vec α} {ids : List EdgeId}
    (moves : s.moveVertex v target = (.ok ids, after))
    (numeric : ∀ place ∈ after.display, place.Numeric) : after.Mirrors := by
  obtain ⟨-, source, displayed, rfl⟩ := moveVertex_ok moves
  have shown : v.index < s.display.size := (Array.getElem?_eq_some_iff.mp displayed).1
  have moved : (s.display.setIfInBounds v.index target)[v.index]? = some target :=
    Array.getElem?_setIfInBounds_self_of_lt shown
  refine ⟨numeric, HitIndex.perm_relocate tree mirrors.entries mirrors.numeric displayed ?_ ?_⟩
  · exact mirrors.numeric source (Array.mem_of_getElem? displayed)
  · exact numeric target (Array.mem_of_getElem? moved)

end Mirror

section Commands

variable {α γ τ : Type} [PolarScalar α] [Multigraph γ] [EntryTree α τ] {s : Session α γ τ}
  (tree : EntryTree.Lawful τ (Vec.Numeric (α := α)))

include tree

/-- A turn after which no NaN is displayed leaves the index like the display, if it was so before or
all vertices are shown anew. -/
theorem Turn.mirrors {h : Happening α} {after : Session α γ τ} (turn : Turn s h after)
    (numeric : ∀ place ∈ after.display, place.Numeric) (either : s.Mirrors ∨ h.Renews) :
    after.Mirrors := by
  cases turn with
  | idle => exact either.resolve_right id
  | raise flag => exact { either.resolve_right id with }
  | configure config => exact { either.resolve_right id with }
  | load loads =>
      obtain ⟨simulation, adjacency, -, -, -, rfl⟩ := load_ok loads
      exact mirrors_publish tree numeric _
  | clear => exact mirrors_of_empty tree rfl rfl
  | advance frames loaded running pos row => exact mirrors_publish tree numeric _
  | move moves => exact (either.resolve_right id).moveVertex tree moves numeric

theorem mirrors_after (valid : s.RunValid) {commands : List (SessionCommand α)}
    (either : s.Mirrors ∨ ∃ x ∈ s.exchanges commands, x.Renews)
    (unspoilt : ¬ Spoilt (s.exchanges commands)) : (s.after commands).Mirrors := by
  induction commands generalizing s with
  | nil => exact either.resolve_right (by simp [exchanges])
  | cons command rest ih =>
      have turn := turn_exec valid command
      rw [exchanges, spoilt_cons_iff, not_or] at unspoilt
      refine ih (turn.runValid valid) ?_ unspoilt.2
      by_cases later : ∃ x ∈ (s.exchange command).left.exchanges rest, x.Renews
      · exact .inr later
      · -- Nothing is shown anew later on, so there is no NaN now.
        have numeric : ∀ place ∈ (s.exchange command).left.display, place.Numeric := by
          intro place shown
          by_contra astray
          exact unspoilt.1 ⟨⟨place, shown, astray⟩, fun y mem renews => later ⟨y, mem, renews⟩⟩
        refine .inl (turn.mirrors tree numeric (either.imp_right ?_))
        rintro ⟨x, mem, renews⟩
        rcases List.mem_cons.mp mem with rfl | mem
        · exact renews
        · exact absurd ⟨x, mem, renews⟩ later

theorem mirrors_of_unspoilt {config : Config α} {commands : List (SessionCommand α)}
    (unspoilt : ¬ Spoilt ((new config : Session α γ τ).exchanges commands)) :
    ((new config : Session α γ τ).after commands).Mirrors :=
  mirrors_after (s := new config) tree (fun _ loaded => nomatch loaded)
    (.inl (mirrors_of_empty tree rfl rfl)) unspoilt

omit tree in
theorem display_size_after (graph : Multigraph.Lawful γ) (config : Config α)
    (commands : List (SessionCommand α)) :
    ((new config : Session α γ τ).after commands).display.size =
      ((new config : Session α γ τ).after commands).vertexCount := by
  have represents := represents_told γ τ config commands
  have count := represents.vertexCount graph
  rw [← represents.display_size] at count
  rw [told, perform_snd] at count
  exact count.symm

end Commands

/-- What can be hit is what is displayed. -/
structure HitsDisplay {α γ τ : Type} [Scalar α] [Multigraph γ] [EntryTree α τ]
    (s : Session α γ τ) : Prop where
  display_size : s.display.size = s.vertexCount
  /-- The entries are the vertices at the places where they are displayed. -/
  mem_entries_iff : ∀ e, e ∈ s.index.entries ↔ s.display[e.vertex.index]? = some e.place
  /-- No vertex has two entries. -/
  nodup : (s.index.entries.map HitEntry.vertex).Nodup
  index_size : s.index.size = s.vertexCount
  /-- A vertex that is picked is displayed within the radius, and none is displayed nearer. -/
  picked : (∀ place ∈ s.display, place.isFinite = true) →
    ∀ p radius v, p.isFinite = true → s.pick? p radius = some v →
      ∃ place, s.display[v.index]? = some place ∧
        (place - p).lengthSq ≤ radius * radius ∧
          ∀ other ∈ s.display, (place - p).lengthSq ≤ (other - p).lengthSq
  /-- None is picked only where none is displayed within the radius. -/
  missed : (∀ place ∈ s.display, place.isFinite = true) →
    ∀ p radius, p.isFinite = true →
      (s.pick? p radius = none ↔ ∀ place ∈ s.display, ¬ (place - p).lengthSq ≤ radius * radius)

/-- An index like the display answers for it. -/
theorem Mirrors.hitsDisplay {α γ τ : Type} [Scalar α] [OrderedScalar α] [Multigraph γ]
    [EntryTree α τ] {s : Session α γ τ} (tree : EntryTree.Lawful τ (Vec.Numeric (α := α)))
    (mirrors : s.Mirrors) (size : s.display.size = s.vertexCount) : s.HitsDisplay where
  display_size := size
  mem_entries_iff := mirrors.mem_entries_iff
  nodup := (mirrors.entries.map HitEntry.vertex).nodup_iff.mpr HitEntry.nodup_ofPoints
  index_size := (mirrors.index_size tree).trans size
  picked := by
    intro finite p radius v pointed found
    have held := (mirrors.forall_place_iff Vec.Finite).mpr finite
    obtain ⟨e, nearest, rfl, within⟩ := HitIndex.nearestWithin?_eq_some tree held pointed found
    refine ⟨e.place, (mirrors.mem_entries_iff e).mp nearest.listed, within, ?_⟩
    exact (mirrors.forall_place_iff fun other => _ ≤ (other - p).lengthSq).mp nearest.least
  missed := by
    intro finite p radius pointed
    have held := (mirrors.forall_place_iff Vec.Finite).mpr finite
    have none_iff : s.pick? p radius = none ↔ _ :=
      HitIndex.nearestWithin?_eq_none_iff tree held pointed
    exact none_iff.trans (mirrors.forall_place_iff fun place => ¬ (place - p).lengthSq ≤ _)

/-! ### Reachable sessions in binary64 -/

section Reachable

variable {γ τ : Type} [Multigraph γ] [EntryTree Float τ]

/-- Whatever is asked of a session, its index has exactly one entry for each vertex, unless a NaN
was displayed since all vertices were last shown anew. -/
theorem index_count_of_unspoilt (graph : Multigraph.Lawful γ)
    (tree : EntryTree.Lawful τ (Vec.Numeric (α := Float))) (config : Config Float)
    (commands : List (SessionCommand Float))
    (unspoilt : ¬ Spoilt ((new config : Session Float γ τ).exchanges commands)) :
    let s := (new config : Session Float γ τ).after commands
    s.index.size = s.vertexCount ∧
      (s.index.entries.map HitEntry.vertex).Perm ((List.range s.vertexCount).map VertexId.mk) := by
  intro s
  have mirrors : s.Mirrors := mirrors_of_unspoilt tree unspoilt
  rw [← display_size_after graph config commands]
  exact ⟨mirrors.index_size tree, mirrors.map_vertex⟩

/-- A graph of one vertex that is dragged to nowhere, shown anew and dragged again. -/
def renewed : List (SessionCommand Float) :=
  [.load ⟨[⟨"a", ⟨3, 4⟩⟩], []⟩, .moveVertex ⟨0⟩ ⟨0 / 0, 0⟩, .settle, .moveVertex ⟨0⟩ ⟨1, 1⟩]

theorem index_count_of_unspoilt_renewed :
    let blank : PlainSession Float := new .standard
    Multigraph.Lawful IncidenceTable ∧
      EntryTree.Lawful (EntryList Float) (Vec.Numeric (α := Float)) ∧
      ¬ Spoilt (blank.exchanges renewed) ∧ (blank.after renewed).index.size = 1 := by
  intro blank
  have unspoilt : ¬ Spoilt (blank.exchanges renewed) := by decide +kernel
  have counted := index_count_of_unspoilt IncidenceTable.lawful (EntryList.lawful _) .standard
    renewed unspoilt
  refine ⟨IncidenceTable.lawful, EntryList.lawful _, unspoilt, counted.1.trans ?_⟩
  decide +kernel

/-- A graph of one vertex that is dragged to nowhere and back. -/
def dragged : List (SessionCommand Float) :=
  [.load ⟨[⟨"a", ⟨3, 4⟩⟩], []⟩, .moveVertex ⟨0⟩ ⟨0 / 0, 0⟩, .moveVertex ⟨0⟩ ⟨1, 1⟩]

/-- There can be more entries than vertices. -/
theorem index_outgrows_display :
    ¬ ∀ (config : Config Float) (commands : List (SessionCommand Float)),
      let s := (new config : PlainSession Float).after commands
      s.index.size = s.vertexCount := by
  intro mirrored
  exact absurd (mirrored .standard dragged) (by decide +kernel)

/-- As long as no NaN is displayed, what can be hit is what is displayed. -/
theorem hitsDisplay_of_numeric (graph : Multigraph.Lawful γ)
    (tree : EntryTree.Lawful τ (Vec.Numeric (α := Float))) (config : Config Float)
    (commands : List (SessionCommand Float))
    (numeric : ∀ x ∈ (new config : Session Float γ τ).exchanges commands,
      ∀ place ∈ x.left.display, place.Numeric) :
    ((new config : Session Float γ τ).after commands).HitsDisplay :=
  (mirrors_of_unspoilt tree (not_spoilt_of_numeric numeric)).hitsDisplay tree
    (display_size_after graph config commands)

/-- Two vertices that are dragged to one point, over signed zeros, and apart again. -/
def crossed : List (SessionCommand Float) :=
  [.load ⟨[⟨"a", ⟨0, 0⟩⟩, ⟨"b", ⟨1000, 0⟩⟩], [⟨0, 1, false⟩]⟩, .moveVertex ⟨0⟩ ⟨0, 7⟩, .nextFrame,
    .moveVertex ⟨0⟩ ⟨0, 7⟩, .moveVertex ⟨1⟩ ⟨-0, 7⟩, .moveVertex ⟨0⟩ ⟨-0, 7⟩,
    .moveVertex ⟨1⟩ ⟨5, 5⟩]

theorem hitsDisplay_of_numeric_crossed :
    let blank : PlainSession Float := new .standard
    (∀ x ∈ blank.exchanges crossed, ∀ place ∈ x.left.display, place.Numeric) ∧
      (blank.after crossed).HitsDisplay ∧ (blank.after crossed).pick? ⟨1, 7⟩ 2 = some ⟨0⟩ := by
  intro blank
  have numeric : ∀ x ∈ blank.exchanges crossed, ∀ place ∈ x.left.display, place.Numeric := by
    decide +kernel
  exact ⟨numeric, hitsDisplay_of_numeric IncidenceTable.lawful (EntryList.lawful _) .standard
    crossed numeric, by decide +kernel⟩

end Reachable

end Session

end SpringLayout
