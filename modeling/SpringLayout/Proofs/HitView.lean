import Mathlib.Data.Multiset.ZeroCons
import SpringLayout.Proofs.EntryList
import SpringLayout.Proofs.HitIndex

/-!
An index against its plain account.

The plain account of an index is a multiset of entries. `HitCommand.Replaces` says what one command
makes of it, `Replays` what commands in a row do. As long as entries are put at finite places only,
one command does to an index over a lawful tree what the plain account says
(`HitIndex.replaces_exec`), and so do commands in a row. Main statement: `HitView.followsPlain`, for
the index in a list and for an index over any lawful tree: its entries are those of the plain
account, and its searches find an entry of least distance.
-/

namespace SpringLayout

/-! ### The plain account -/

/-- What changes an index. -/
inductive HitCommand (α : Type) where
  /-- One entry for each point in place of all that were there. -/
  | rebuild (points : Array (Vec α))
  | relocate (vertex : VertexId) (source target : Vec α)
  | clear
deriving Repr

section Plain

variable {α : Type} [Scalar α]

/-- All entries are at finite places. -/
def AllFinite (held : Multiset (HitEntry α)) : Prop := ∀ e ∈ held, e.place.isFinite = true

theorem AllFinite.zero : AllFinite (0 : Multiset (HitEntry α)) :=
  fun e listed => absurd listed (Multiset.notMem_zero e)

/-- The entry is one of the vertex, with coordinates equal to those of the point. -/
def HitEntry.IsAt (e : HitEntry α) (v : VertexId) (p : Vec α) : Prop :=
  e.vertex = v ∧ (e.place.x == p.x) = true ∧ (e.place.y == p.y) = true

theorem HitEntry.beq_iff_isAt {e : HitEntry α} {v : VertexId} {p : Vec α} :
    (e == ⟨v, p⟩) = true ↔ e.IsAt v p := by
  rw [HitEntry.beq_iff]
  refine and_congr_right fun _ => ?_
  change (e.place.x == p.x && e.place.y == p.y) = true ↔ _
  exact Bool.and_eq_true_iff

namespace HitCommand

/-- What the command puts into an index is at finite places. Where it looks for an entry to be moved
does not matter. -/
def IsFinite : HitCommand α → Prop
  | .rebuild points => ∀ p ∈ points, p.isFinite = true
  | .relocate _ _ target => target.isFinite = true
  | .clear => True

instance (c : HitCommand α) : Decidable c.IsFinite :=
  match c with
  | .rebuild points => inferInstanceAs (Decidable (∀ p ∈ points, p.isFinite = true))
  | .relocate _ _ target => inferInstanceAs (Decidable (target.isFinite = true))
  | .clear => inferInstanceAs (Decidable True)

/-- What a command makes of the entries held, and what it is answered. What is held after a rebuild
is one entry for each point, of the vertex of the same number. -/
inductive Replaces : HitCommand α → Multiset (HitEntry α) → Option Bool →
    Multiset (HitEntry α) → Prop where
  | rebuild (points : Array (Vec α)) (held : Multiset (HitEntry α)) :
      Replaces (.rebuild points) held none
        (points.toList.mapIdx fun i p => (⟨⟨i⟩, p⟩ : HitEntry α))
  /-- One entry is taken out, though there may be more like it. -/
  | found {v : VertexId} {source : Vec α} (target : Vec α) {e : HitEntry α}
      (rest : Multiset (HitEntry α)) : e.IsAt v source →
      Replaces (.relocate v source target) (e ::ₘ rest) (some true) (⟨v, target⟩ ::ₘ rest)
  | missed {v : VertexId} {source : Vec α} (target : Vec α) {held : Multiset (HitEntry α)} :
      (∀ e ∈ held, ¬ e.IsAt v source) →
      Replaces (.relocate v source target) held (some false) (⟨v, target⟩ ::ₘ held)
  | clear (held : Multiset (HitEntry α)) : Replaces .clear held none 0

/-- The answers to some commands in a row, and what is left. -/
def perform {σ : Type} (exec : σ → HitCommand α → Option Bool × σ) (s : σ) :
    List (HitCommand α) → List (Option Bool) × σ
  | [] => ([], s)
  | command :: rest =>
    let (answer, next) := exec s command
    let (answers, last) := perform exec next rest
    (answer :: answers, last)

end HitCommand

/-- What some commands in a row make of the entries held, and what they are answered. -/
inductive Replays : List (HitCommand α) → Multiset (HitEntry α) → List (Option Bool) →
    Multiset (HitEntry α) → Prop where
  | nil (held : Multiset (HitEntry α)) : Replays [] held [] held
  | cons {command : HitCommand α} {rest : List (HitCommand α)} {answer : Option Bool}
      {answers : List (Option Bool)} {held next last : Multiset (HitEntry α)} :
      command.Replaces held answer next → Replays rest next answers last →
      Replays (command :: rest) held (answer :: answers) last

/-- Commands that put entries at finite places only leave no others. -/
theorem HitCommand.Replaces.allFinite {command : HitCommand α} {held next : Multiset (HitEntry α)}
    {answer : Option Bool} (replaces : command.Replaces held answer next)
    (finite : command.IsFinite) (all : AllFinite held) : AllFinite next := by
  cases replaces with
  | rebuild points held =>
      rw [← HitEntry.ofPoints_eq_mapIdx]
      exact HitEntry.forall_place_ofPoints_iff (P := fun p => p.isFinite = true).mpr finite
  | found target rest isAt =>
      exact Multiset.forall_mem_cons.mpr ⟨finite, (Multiset.forall_mem_cons.mp all).2⟩
  | missed target none => exact Multiset.forall_mem_cons.mpr ⟨finite, all⟩
  | clear held => exact AllFinite.zero

end Plain

/-! ### What is seen of an index -/

/-- What is seen of an index: its entries in no order, and its answers. -/
structure HitView (α : Type) where
  entries : Multiset (HitEntry α)
  size : Nat
  isEmpty : Bool
  nearest? : Vec α → Option VertexId
  nearestWithin? : Vec α → α → Option VertexId

section Views

variable {α : Type} [Scalar α]

/-- The entry is held, and none that is held is nearer to `p`. -/
def HeldNearest (p : Vec α) (held : Multiset (HitEntry α)) (e : HitEntry α) : Prop :=
  e ∈ held ∧ ∀ f ∈ held, e.distSq p ≤ f.distSq p

/-- After some commands that were answered with `answers`, the index is seen as the plain account
says. -/
structure HitView.FollowsPlain (commands : List (HitCommand α)) (answers : List (Option Bool))
    (view : HitView α) : Prop where
  replays : Replays commands 0 answers view.entries
  size : view.size = view.entries.card
  isEmpty_iff : view.isEmpty = true ↔ view.entries.card = 0
  nearest_none_iff : ∀ p, p.isFinite = true → (view.nearest? p = none ↔ view.entries = 0)
  nearest_some : ∀ p v, p.isFinite = true → view.nearest? p = some v →
    ∃ e, HeldNearest p view.entries e ∧ e.vertex = v
  /-- A search within a radius finds nothing only where there is nothing. -/
  within_none_iff : ∀ p radius, p.isFinite = true →
    (view.nearestWithin? p radius = none ↔
      ∀ e ∈ view.entries, ¬ e.distSq p ≤ radius * radius)
  within_some : ∀ p radius v, p.isFinite = true → view.nearestWithin? p radius = some v →
    ∃ e, HeldNearest p view.entries e ∧ e.vertex = v ∧ e.distSq p ≤ radius * radius

namespace HitIndex

variable {τ : Type} [EntryTree α τ]

/-- What an index holds, in no order. -/
def held (x : HitIndex τ) : Multiset (HitEntry α) := x.entries

/-- What a command is answered, and the index that it leaves. -/
def exec (x : HitIndex τ) : HitCommand α → Option Bool × HitIndex τ
  | .rebuild points => (none, ofPoints points)
  | .relocate v source target =>
    let (found, next) := x.relocate v source target
    (some found, next)
  | .clear => (none, HitIndex.empty)

/-- What is seen of the index. -/
def view (x : HitIndex τ) : HitView α where
  entries := x.held
  size := x.size
  isEmpty := x.isEmpty
  nearest? p := x.nearest? p
  nearestWithin? p radius := x.nearestWithin? p radius

end HitIndex

end Views

/-! ### Indices over lawful trees -/

namespace HitIndex

section Commands

variable {α τ : Type} [Scalar α] [EntryTree α τ] {x : HitIndex τ}

theorem held_ofPoints (lawful : EntryTree.Lawful τ (Vec.Finite (α := α)))
    {points : Array (Vec α)} (finite : ∀ p ∈ points, p.Finite) :
    (ofPoints points : HitIndex τ).held =
      points.toList.mapIdx fun i p => (⟨⟨i⟩, p⟩ : HitEntry α) := by
  rw [← HitEntry.ofPoints_eq_mapIdx]
  exact Multiset.coe_eq_coe.mpr (entries_ofPoints lawful finite)

theorem held_empty (lawful : EntryTree.Lawful τ (Vec.Finite (α := α))) :
    (empty : HitIndex τ).held = 0 :=
  congrArg Multiset.ofList (entries_empty lawful)

theorem held_relocate (lawful : EntryTree.Lawful τ (Vec.Finite (α := α))) (all : AllFinite x.held)
    (v : VertexId) (source : Vec α) {target : Vec α} (finite : target.Finite) :
    (x.relocate v source target).2.held =
      ⟨v, target⟩ ::ₘ held ⟨(EntryTree.remove ⟨v, source⟩ x.tree).2⟩ :=
  Multiset.coe_eq_coe.mpr (entries_relocate lawful.toSparing all v source finite)

/-- A command does to the index what the plain account says. -/
theorem replaces_exec (lawful : EntryTree.Lawful τ (Vec.Finite (α := α))) (all : AllFinite x.held)
    {command : HitCommand α} (finite : command.IsFinite) :
    command.Replaces x.held (x.exec command).1 (x.exec command).2.held := by
  cases command with
  | rebuild points =>
      rw [exec, held_ofPoints lawful finite]
      exact .rebuild points _
  | relocate v source target =>
      have put := held_relocate lawful all v source finite
      change HitCommand.Replaces _ x.held
        (some (EntryTree.remove ⟨v, source⟩ x.tree).1.isSome) (x.relocate v source target).2.held
      rw [put]
      cases removed : EntryTree.remove ⟨v, source⟩ x.tree with
      | mk taken rest =>
          cases taken with
          | some e =>
              obtain ⟨equal, split⟩ := lawful.remove_some all removed
              have before : x.held = e ::ₘ held ⟨rest⟩ := Multiset.coe_eq_coe.mpr split
              rw [before]
              exact .found target _ (HitEntry.beq_iff_isAt.mp equal)
          | none =>
              have unequal := lawful.absent all removed
              have same := lawful.remove_none all removed
              have before : x.held = held ⟨rest⟩ := Multiset.coe_eq_coe.mpr same.symm
              rw [← before]
              exact .missed target fun e listed => mt HitEntry.beq_iff_isAt.mpr (unequal e listed)
  | clear =>
      rw [exec, held_empty lawful]
      exact .clear _

theorem replays_perform (lawful : EntryTree.Lawful τ (Vec.Finite (α := α)))
    (commands : List (HitCommand α)) (finite : ∀ c ∈ commands, c.IsFinite)
    (all : AllFinite x.held) :
    let (answers, last) := HitCommand.perform exec x commands
    Replays commands x.held answers last.held ∧ AllFinite last.held := by
  induction commands generalizing x with
  | nil => exact ⟨.nil _, all⟩
  | cons command rest ih =>
      obtain ⟨first, others⟩ := List.forall_mem_cons.mp finite
      have replaces := replaces_exec lawful all first
      obtain ⟨replays, last⟩ := ih others (replaces.allFinite first all)
      exact ⟨.cons replaces replays, last⟩

variable [OrderedScalar α]

/-- An index over a lawful tree is seen as the plain account says. -/
theorem view_follows (lawful : EntryTree.Lawful τ (Vec.Finite (α := α)))
    {commands : List (HitCommand α)} {answers : List (Option Bool)}
    (replays : Replays commands 0 answers x.held) (all : AllFinite x.held) :
    x.view.FollowsPlain commands answers where
  replays := replays
  size := lawful.size x.tree
  isEmpty_iff := by
    change (EntryTree.size x.tree == 0) = true ↔ _
    rw [beq_iff_eq, lawful.size]
    rfl
  nearest_none_iff p pointed := by
    change x.nearest? p = none ↔ (x.entries : Multiset (HitEntry α)) = 0
    rw [nearest?_eq_none_iff lawful all pointed, Multiset.coe_eq_zero]
  nearest_some p v pointed answered := by
    obtain ⟨e, nearest, vertex⟩ := nearest?_eq_some lawful all pointed answered
    exact ⟨e, ⟨nearest.listed, nearest.least⟩, vertex⟩
  within_none_iff p radius pointed := nearestWithin?_eq_none_iff lawful all pointed
  within_some p radius v pointed answered := by
    obtain ⟨e, nearest, vertex, within⟩ := nearestWithin?_eq_some lawful all pointed answered
    exact ⟨e, ⟨nearest.listed, nearest.least⟩, vertex, within⟩

/-- Whatever commands an index over a lawful tree is given, it is seen as the plain account says, as
long as they put entries at finite places. -/
theorem perform_follows (lawful : EntryTree.Lawful τ (Vec.Finite (α := α)))
    {commands : List (HitCommand α)} (finite : ∀ c ∈ commands, c.IsFinite) :
    let (answers, last) := HitCommand.perform exec (empty : HitIndex τ) commands
    last.view.FollowsPlain commands answers := by
  have none := held_empty lawful
  have unheld : AllFinite (empty : HitIndex τ).held := by
    rw [none]
    exact AllFinite.zero
  obtain ⟨replays, all⟩ := replays_perform lawful commands finite unheld
  rw [none] at replays
  exact view_follows lawful replays all

end Commands

end HitIndex

/-! ### The index in a list, and over any tree -/

/-- After any commands that put entries at finite places, the index in a list is seen as the plain
account says, and so is one over any lawful tree. -/
theorem HitView.followsPlain (commands : List (HitCommand Float))
    (finite : ∀ c ∈ commands, c.IsFinite) :
    (let (answers, last) :=
        HitCommand.perform HitIndex.exec (HitIndex.empty : HitIndex (EntryList Float)) commands
     last.view.FollowsPlain commands answers) ∧
    ∀ {τ : Type} [EntryTree Float τ], EntryTree.Lawful τ (Vec.Finite (α := Float)) →
      let (answers, last) :=
        HitCommand.perform HitIndex.exec (HitIndex.empty : HitIndex τ) commands
      last.view.FollowsPlain commands answers := by
  constructor
  · exact HitIndex.perform_follows (EntryList.lawful _) finite
  · intro τ tree lawful
    exact HitIndex.perform_follows lawful finite

/-- An entry looked for at a zero of the other sign is moved, one that is not where it was looked
for gets a second entry, and one looked for at a place that is no number gets a third. -/
theorem HitView.followsPlain_strays :
    let commands : List (HitCommand Float) :=
      [.rebuild #[⟨0, 0⟩, ⟨3, 4⟩], .relocate ⟨0⟩ ⟨-0, 0⟩ ⟨1, 1⟩, .relocate ⟨1⟩ ⟨9, 9⟩ ⟨3, 4⟩,
        .relocate ⟨1⟩ ⟨0 / 0, 0⟩ ⟨3, 4⟩]
    (∀ c ∈ commands, c.IsFinite) ∧
      EntryTree.Lawful (EntryList Float) (Vec.Finite (α := Float)) ∧
      (let (answers, last) :=
        HitCommand.perform HitIndex.exec (HitIndex.empty : HitIndex (EntryList Float)) commands
       answers = [none, some true, some false, some false] ∧ last.size = 4 ∧
         last.view.FollowsPlain commands answers) := by
  intro commands
  have finite : ∀ c ∈ commands, c.IsFinite := by decide +kernel
  have follows := (HitView.followsPlain commands finite).2 (EntryList.lawful _)
  exact ⟨finite, EntryList.lawful _, by decide +kernel, by decide +kernel, follows⟩

end SpringLayout
