import SpringLayout.Json.Description
import SpringLayout.Proofs.Json.Parts
import SpringLayout.Scalar.Binary64

/-!
Reading descriptions of graphs.

`Description.Varies` takes one step from a description to another that says the same: members in
another order, one more that nobody asks for, an empty list less, or the note that an edge is
undirected less. `Description.Faulty` says what is wrong with a description that cannot be read.

Main statement: `Description.reads_back`. What is read from a written description, however it is
varied, is the graph that was written; and a description is refused for its faults only.
-/

namespace SpringLayout

open Json

/-! ### Lists of objects -/

namespace Json

section Lists

variable {α β : Type} {read : α → Option β}

theorem mapM_eq_none_iff {items : List α} :
    items.mapM read = none ↔ ∃ item ∈ items, read item = none := by
  induction items with
  | nil => simp
  | cons item rest ih =>
      rw [List.mapM_cons]
      simp only [List.mem_cons, exists_eq_or_imp, ← ih]
      cases read item with
      | none => simp
      | some b => cases rest.mapM read <;> simp

theorem mapM_map_eq_some {write : β → α} (reads : ∀ b, read (write b) = some b) (bs : List β) :
    (bs.map write).mapM read = some bs := by
  induction bs with
  | nil => rfl
  | cons b rest ih =>
      rw [List.map_cons, List.mapM_cons, reads b, ih]
      rfl

end Lists

/-- The value is an array of objects. -/
def IsObjects (v : Json) : Prop :=
  ∃ items, v = .array items ∧ ∀ item ∈ items, ∃ inner, item = .object inner

/-- There is a member `key`, and it is no array of objects, or one of its objects is faulty. -/
def FaultyAt (members : Members) (key : String) (faulty : Members → Prop) : Prop :=
  (∃ v, (key, v) ∈ members ∧ ¬ IsObjects v) ∨
    ∃ items inner, (key, .array items) ∈ members ∧ .object inner ∈ items ∧ faulty inner

/-- No object in an array at the key repeats a key that is asked for. -/
def UnrepeatedAt (members : Members) (key : String) (keys : List String) : Prop :=
  ∀ items inner, (key, .array items) ∈ members → .object inner ∈ items → Unrepeated keys inner

section Objects

variable {β : Type} {item? : Json → Option β} {key : String} {members : Members}
  (objectsOnly : ∀ v, (∀ inner, v ≠ .object inner) → item? v = none)
include objectsOnly

theorem list?_eq_none_iff {v : Json} :
    list? item? v = none ↔
      ¬ IsObjects v ∨
        ∃ items inner, v = .array items ∧ .object inner ∈ items ∧ item? (.object inner) = none := by
  cases v with
  | array items =>
      rw [list?, mapM_eq_none_iff]
      constructor
      · rintro ⟨item, listed, unread⟩
        by_cases isObject : ∃ inner, item = .object inner
        · obtain ⟨inner, rfl⟩ := isObject
          exact .inr ⟨items, inner, rfl, listed, unread⟩
        · refine .inl ?_
          rintro ⟨_, ⟨⟩, objects⟩
          exact isObject (objects item listed)
      · rintro (notObjects | ⟨_, inner, ⟨⟩, listed, unread⟩)
        -- an item that can be read is an object, so if all can be read, all are
        · by_contra readable
          refine notObjects ⟨items, rfl, fun item listed => ?_⟩
          by_contra notObject
          exact readable ⟨item, listed, objectsOnly item (not_exists.mp notObject)⟩
        · exact ⟨_, listed, unread⟩
  | _ => exact iff_of_true rfl (.inl (by rintro ⟨_, ⟨⟩, _⟩))

theorem optional_list_eq_none_iff {keys : List String} (once : Unrepeated keys members)
    (asked : key ∈ keys) {absent : List β} {faulty : Members → Prop}
    (found : ∀ items inner, (key, .array items) ∈ members → .object inner ∈ items →
      (item? (.object inner) = none ↔ faulty inner)) :
    optional members key (list? item?) absent = none ↔ FaultyAt members key faulty := by
  rw [optional_eq_none_iff once asked]
  simp only [list?_eq_none_iff objectsOnly, and_or_left, exists_or, FaultyAt]
  refine or_congr_right ?_
  constructor
  · rintro ⟨_, listed, items, inner, rfl, held, unread⟩
    exact ⟨items, inner, listed, held, (found items inner listed held).mp unread⟩
  · rintro ⟨items, inner, listed, held, faulty⟩
    exact ⟨_, listed, items, inner, rfl, held, (found items inner listed held).mpr faulty⟩

end Objects

section Variation

variable {β : Type} {item? : Json → Option β} {key other : String} {keys : List String}
  {understood a b : Members}

theorem Varies.unrepeatedAt {asked : List String} (varies : Varies asked understood a b)
    (mem : key ∈ asked) (once : UnrepeatedAt a key keys) : UnrepeatedAt b key keys :=
  fun items inner listed => once items inner (varies.mem_of_mem mem listed)

theorem AtKey.unrepeatedAt_of_ne {step : Json → Json → Prop} (at_key : AtKey key step a b)
    (differ : other ≠ key) (once : UnrepeatedAt a other keys) : UnrepeatedAt b other keys := by
  intro items inner listed
  rcases at_key.mem_or_step listed with before | ⟨same, _⟩
  · exact once items inner before
  · exact absurd same differ

variable (at_key : AtKey key (OfItem (OfObject (Varies keys understood))) a b)
  (once : UnrepeatedAt a key keys)
include at_key once

theorem AtKey.unrepeatedAt : UnrepeatedAt b key keys := by
  intro items inner listed held
  rcases at_key.mem_or_step listed with before | ⟨-, v, before, stepped⟩
  · exact once items inner before held
  · obtain ⟨old, rfl⟩ : ∃ old, v = .array old := by
      cases stepped with
      | mk front back _ => exact ⟨_, rfl⟩
    rcases stepped.mem_or_step held with kept | ⟨_, kept, ⟨varies⟩⟩
    · exact once old inner before kept
    · exact varies.unrepeated (once old _ before kept)

theorem AtKey.optional_list_eq {absent : List β}
    (same : ∀ {c d : Members}, Varies keys understood c d → Unrepeated keys c →
      item? (.object d) = item? (.object c)) :
    optional b key (list? item?) absent = optional a key (list? item?) absent := by
  refine at_key.optional_eq fun _ v w listed stepped => stepped.list?_eq ?_
  rintro items rfl old held new ⟨varies⟩
  exact same varies (once items _ listed held)

end Variation

end Json

/-! ### Vertices -/

namespace VertexEntry

/-- The keys of a vertex. -/
def keys : List String := ["name", "x", "y"]

/-- A vertex that lacks or mistypes something. -/
def Faulty (members : Members) : Prop :=
  (Lacks members "name" ∨ Mistypes members "name" IsString) ∨
  (Lacks members "x" ∨ Mistypes members "x" IsNumber) ∨
  (Lacks members "y" ∨ Mistypes members "y" IsNumber)

theorem ofJson?_toJson (v : VertexEntry Float) : VertexEntry.ofJson? v.toJson = some v := rfl

theorem ofJson?_of_not_object (v : Json) (notObject : ∀ inner, v ≠ .object inner) :
    VertexEntry.ofJson? v = none := by
  cases v with
  | object inner => exact absurd rfl (notObject inner)
  | _ => rfl

theorem ofJson?_object_eq_none_iff {inner : Members} (once : Unrepeated keys inner) :
    VertexEntry.ofJson? (.object inner) = none ↔ Faulty inner := by
  rw [Faulty, ← required_eq_none_iff_mistypes once (by decide) fun v _ => reads_string v,
    ← required_eq_none_iff_mistypes once (by decide) fun v _ => reads_number v,
    ← required_eq_none_iff_mistypes once (by decide) fun v _ => reads_number v]
  simp only [VertexEntry.ofJson?, members?, Option.bind_eq_bind, Option.bind_some]
  cases required inner "name" string? with
  | none => simp
  | some name =>
      cases required inner "x" number? with
      | none => simp
      | some x => cases required inner "y" number? <;> simp

theorem ofJson?_of_varies {a b : Members} (varies : Varies keys [] a b)
    (once : Unrepeated keys a) :
    VertexEntry.ofJson? (.object b) = VertexEntry.ofJson? (.object a) := by
  have same {β : Type} {read : Json → Option β} (key : String) (asked : key ∈ keys) :
      required b key read = required a key read :=
    varies.required_eq once asked nofun
  simp only [VertexEntry.ofJson?, members?, Option.bind_eq_bind, Option.bind_some]
  rw [same "name" (by decide), same "x" (by decide), same "y" (by decide)]

theorem unrepeated_toJson {v : VertexEntry Float} {inner : Members}
    (written : v.toJson = .object inner) : Unrepeated keys inner := by
  obtain rfl := Json.object.inj written
  exact unrepeated_of_keys rfl (by decide)

theorem hasText_toJson {v : VertexEntry Float} (finite : v.hint.isFinite = true) :
    v.toJson.HasText := by
  obtain ⟨x, y⟩ := Bool.and_eq_true_iff.mp finite
  refine .object ?_
  simp only [List.forall_mem_cons]
  exact ⟨.string v.name, .real x, .real y, nofun⟩

end VertexEntry

/-! ### Edges -/

namespace EdgeEntry

/-- The keys of an edge. -/
def keys : List String := ["head", "tail", "directed"]

/-- What an edge is understood to say without saying it. -/
def understood : Members := [("directed", .bool false)]

/-- An edge that lacks or mistypes an end, or mistypes its direction. -/
def Faulty (members : Members) : Prop :=
  (Lacks members "head" ∨ Mistypes members "head" IsWord) ∨
  (Lacks members "tail" ∨ Mistypes members "tail" IsWord) ∨
  Mistypes members "directed" IsBool

theorem ofJson?_toJson (e : EdgeEntry) : EdgeEntry.ofJson? e.toJson = some e := by
  -- the reader meets a name for the members only, and asks `found` what stands among them
  obtain ⟨written, eq⟩ : ∃ written, e.toJson = .object written := ⟨_, rfl⟩
  have found : written.lookup "head" = some (ofWord e.head) ∧
      written.lookup "tail" = some (ofWord e.tail) ∧
      written.lookup "directed" = some (.bool e.directed) := by
    obtain rfl := Json.object.inj eq
    exact ⟨rfl, rfl, rfl⟩
  obtain ⟨head, tail, directed⟩ := found
  simp only [eq, EdgeEntry.ofJson?, members?, Option.bind_eq_bind, Option.bind_some]
  rw [required_of_lookup head, required_of_lookup tail, optional_of_lookup directed,
    word?_ofWord, word?_ofWord]
  rfl

theorem ofJson?_of_not_object (v : Json) (notObject : ∀ inner, v ≠ .object inner) :
    EdgeEntry.ofJson? v = none := by
  cases v with
  | object inner => exact absurd rfl (notObject inner)
  | _ => rfl

theorem ofJson?_object_eq_none_iff {inner : Members} (once : Unrepeated keys inner) :
    EdgeEntry.ofJson? (.object inner) = none ↔ Faulty inner := by
  rw [Faulty, ← required_eq_none_iff_mistypes once (by decide) fun v _ => reads_word v,
    ← required_eq_none_iff_mistypes once (by decide) fun v _ => reads_word v,
    ← optional_eq_none_iff_mistypes once (by decide) (fun v _ => reads_bool v)]
  simp only [EdgeEntry.ofJson?, members?, Option.bind_eq_bind, Option.bind_some]
  cases required inner "head" word? with
  | none => simp
  | some head =>
      cases required inner "tail" word? with
      | none => simp
      | some tail => cases optional inner "directed" bool? false <;> simp

theorem ofJson?_of_varies {a b : Members} (varies : Varies keys understood a b)
    (once : Unrepeated keys a) :
    EdgeEntry.ofJson? (.object b) = EdgeEntry.ofJson? (.object a) := by
  have told (key : String) (asked : key ∈ keys ∧ key ≠ "directed") :
      required b key word? = required a key word? := by
    refine varies.required_eq once asked.1 fun v known => ?_
    exact asked.2 (Prod.mk.inj (List.mem_singleton.mp known)).1
  have direction : optional b "directed" bool? false = optional a "directed" bool? false := by
    refine varies.optional_eq once (by decide) fun v known => ?_
    obtain ⟨-, rfl⟩ := Prod.mk.inj (List.mem_singleton.mp known)
    rfl
  simp only [EdgeEntry.ofJson?, members?, Option.bind_eq_bind, Option.bind_some]
  rw [told "head" (by decide), told "tail" (by decide), direction]

theorem unrepeated_toJson {e : EdgeEntry} {inner : Members} (written : e.toJson = .object inner) :
    Unrepeated keys inner := by
  obtain rfl := Json.object.inj written
  exact unrepeated_of_keys rfl (by decide)

theorem hasText_toJson (e : EdgeEntry) : e.toJson.HasText := by
  refine .object ?_
  simp only [List.forall_mem_cons]
  exact ⟨.integer _, .integer _, .bool _, nofun⟩

end EdgeEntry

/-! ### Graphs -/

namespace Description

/-- The keys of a description. -/
def keys : List String := ["vertices", "edges"]

/-- What a description is understood to say without saying it. -/
def understood : Members := [("vertices", .array []), ("edges", .array [])]

/-- A description with something other than an array of objects for its vertices or for its edges,
or with a faulty vertex or edge. -/
def Faulty (members : Members) : Prop :=
  FaultyAt members "vertices" VertexEntry.Faulty ∨ FaultyAt members "edges" EdgeEntry.Faulty

/-- No key that is asked for is repeated, in the description or in a vertex or an edge. -/
structure Unrepeated (members : Members) : Prop where
  keys : Json.Unrepeated Description.keys members
  vertices : UnrepeatedAt members "vertices" VertexEntry.keys
  edges : UnrepeatedAt members "edges" EdgeEntry.keys

/-- The object is one of those whose reading is settled by the names of their members: vertices and
edges that list what they hold without naming it are left out of account. -/
structure InForm (members : Members) : Prop extends Unrepeated members where
  vertices_named : ∀ items inner, ("vertices", .array items) ∈ members → .array inner ∉ items
  edges_named : ∀ items inner, ("edges", .array items) ∈ members → .array inner ∉ items

/-- One step from a description to others that say the same. -/
inductive Varies : Members → Members → Prop where
  | members {a b : Members} : Json.Varies keys understood a b → Varies a b
  | vertex {a b : Members} :
      AtKey "vertices" (OfItem (OfObject (Json.Varies VertexEntry.keys []))) a b → Varies a b
  | edge {a b : Members} :
      AtKey "edges" (OfItem (OfObject (Json.Varies EdgeEntry.keys EdgeEntry.understood))) a b →
      Varies a b

/-- Every vertex has a finite hint. -/
def IsFinite (d : Description Float) : Prop := ∀ v ∈ d.vertices, v.hint.isFinite = true

instance (d : Description Float) : Decidable d.IsFinite :=
  inferInstanceAs (Decidable (∀ v ∈ d.vertices, _))

variable {a b : Members}

theorem ofJson?_object_eq_none_iff {members : Members} (once : Unrepeated members) :
    Description.ofJson? (.object members) = none ↔ Faulty members := by
  rw [Faulty, ← optional_list_eq_none_iff VertexEntry.ofJson?_of_not_object once.keys (by decide)
      fun items inner listed held =>
        VertexEntry.ofJson?_object_eq_none_iff (once.vertices items inner listed held),
    ← optional_list_eq_none_iff EdgeEntry.ofJson?_of_not_object once.keys (by decide)
      fun items inner listed held =>
        EdgeEntry.ofJson?_object_eq_none_iff (once.edges items inner listed held)]
  simp only [Description.ofJson?, members?, Option.bind_eq_bind, Option.bind_some]
  cases optional members "vertices" (list? VertexEntry.ofJson?) [] with
  | none => simp
  | some vertices => cases optional members "edges" (list? EdgeEntry.ofJson?) [] <;> simp

/-! ### Writing, and saying it otherwise -/

theorem unrepeated_toJson {d : Description Float} {written : Members}
    (eq : d.toJson = .object written) : Unrepeated written := by
  obtain rfl := Json.object.inj eq
  constructor
  · exact unrepeated_of_keys rfl (by decide)
  · intro items inner listed held
    obtain rfl : items = d.vertices.map VertexEntry.toJson := by simpa using listed
    obtain ⟨v, -, written⟩ := List.mem_map.mp held
    exact VertexEntry.unrepeated_toJson written
  · intro items inner listed held
    obtain rfl : items = d.edges.map EdgeEntry.toJson := by simpa using listed
    obtain ⟨e, -, written⟩ := List.mem_map.mp held
    exact EdgeEntry.unrepeated_toJson written

theorem ofJson?_toJson (d : Description Float) : Description.ofJson? d.toJson = some d := by
  obtain ⟨written, eq⟩ : ∃ written, d.toJson = .object written := ⟨_, rfl⟩
  have found : written.lookup "vertices" = some (.array (d.vertices.map VertexEntry.toJson)) ∧
      written.lookup "edges" = some (.array (d.edges.map EdgeEntry.toJson)) := by
    obtain rfl := Json.object.inj eq
    exact ⟨rfl, rfl⟩
  simp only [eq, Description.ofJson?, members?, Option.bind_eq_bind, Option.bind_some]
  rw [optional_of_lookup found.1, optional_of_lookup found.2, list?, list?,
    mapM_map_eq_some VertexEntry.ofJson?_toJson, mapM_map_eq_some EdgeEntry.ofJson?_toJson]
  rfl

theorem hasText_toJson {d : Description Float} (finite : d.IsFinite) : d.toJson.HasText := by
  refine .object ?_
  simp only [List.forall_mem_cons]
  refine ⟨.array ?_, .array ?_, nofun⟩
  · exact List.forall_mem_map.mpr fun v listed => VertexEntry.hasText_toJson (finite v listed)
  · exact List.forall_mem_map.mpr fun e _ => e.hasText_toJson

theorem ofJson?_congr
    (vertices : optional b "vertices" (list? VertexEntry.ofJson?) [] =
      optional a "vertices" (list? VertexEntry.ofJson?) [])
    (edges : optional b "edges" (list? EdgeEntry.ofJson?) [] =
      optional a "edges" (list? EdgeEntry.ofJson?) []) :
    Description.ofJson? (.object b) = Description.ofJson? (.object a) := by
  simp only [Description.ofJson?, members?, Option.bind_eq_bind, Option.bind_some]
  rw [vertices, edges]

namespace Varies

variable (varies : Varies a b) (once : Unrepeated a)
include varies once

theorem unrepeated : Unrepeated b := by
  cases varies with
  | members varies =>
      exact ⟨varies.unrepeated once.keys, varies.unrepeatedAt (by decide) once.vertices,
        varies.unrepeatedAt (by decide) once.edges⟩
  | vertex at_key =>
      exact ⟨at_key.unrepeated once.keys, at_key.unrepeatedAt once.vertices,
        at_key.unrepeatedAt_of_ne (by decide) once.edges⟩
  | edge at_key =>
      exact ⟨at_key.unrepeated once.keys, at_key.unrepeatedAt_of_ne (by decide) once.vertices,
        at_key.unrepeatedAt once.edges⟩

theorem ofJson?_eq : Description.ofJson? (.object b) = Description.ofJson? (.object a) := by
  cases varies with
  | members varies =>
      apply ofJson?_congr
      · refine varies.optional_eq once.keys (by decide) fun v known => ?_
        obtain rfl : v = .array [] := by simpa [understood] using known
        rfl
      · refine varies.optional_eq once.keys (by decide) fun v known => ?_
        obtain rfl : v = .array [] := by simpa [understood] using known
        rfl
  | vertex at_key =>
      apply ofJson?_congr
      · exact at_key.optional_list_eq once.vertices VertexEntry.ofJson?_of_varies
      · exact at_key.optional_eq fun same => absurd same (by decide)
  | edge at_key =>
      apply ofJson?_congr
      · exact at_key.optional_eq fun same => absurd same (by decide)
      · exact at_key.optional_list_eq once.edges EdgeEntry.ofJson?_of_varies

end Varies

/-- However a description is varied, what is read from it stays the same. -/
theorem ofJson?_of_varied (varied : Relation.ReflTransGen Varies a b) (once : Unrepeated a) :
    Description.ofJson? (.object b) = Description.ofJson? (.object a) := by
  refine (read_eq_of_steps (fun members => Description.ofJson? (.object members)) ?_ varied once).2
  exact fun varies once => ⟨varies.unrepeated once, varies.ofJson?_eq once⟩

/-- What is written is read back, however it is varied, and an object is refused for its faults
only. -/
theorem reads_back :
    (∀ d : Description Float, d.IsFinite →
      d.toJson.HasText ∧
      ∀ written members, d.toJson = .object written →
        Relation.ReflTransGen Varies written members →
        Description.ofJson? (.object members) = some d) ∧
    ∀ members, InForm members →
      (Description.ofJson? (.object members) = none ↔ Faulty members) := by
  constructor
  · intro d finite
    refine ⟨hasText_toJson finite, fun written members eq varied => ?_⟩
    rw [ofJson?_of_varied varied (unrepeated_toJson eq), ← eq]
    exact d.ofJson?_toJson
  · intro members inForm
    exact ofJson?_object_eq_none_iff inForm.toUnrepeated

/-- Two vertices and an undirected edge told with a title, the edges first, a colour for one vertex
and no direction; and a description without vertices, with an edge that has no tail. -/
theorem reads_back_retold :
    let d : Description Float := ⟨[⟨"left", ⟨1, 2⟩⟩, ⟨"right", ⟨3, 2⟩⟩], [⟨0, 1, false⟩]⟩
    let left : Json :=
      .object [("colour", .null), ("name", .string "left"), ("x", .real 1), ("y", .real 2)]
    let right : Json := .object [("name", .string "right"), ("x", .real 3), ("y", .real 2)]
    let retold : Members :=
      [("edges", .array [.object [("head", .integer 0), ("tail", .integer 1)]]),
        ("title", .string "pair"), ("vertices", .array [left, right])]
    let torn : Members := [("edges", .array [.object [("head", .integer 0)]])]
    (d.IsFinite ∧
      (∃ written, d.toJson = .object written ∧ Relation.ReflTransGen Varies written retold) ∧
      Description.ofJson? (.object retold) = some d) ∧
    InForm torn ∧ Faulty torn ∧ Description.ofJson? (.object torn) = none := by
  intro d left right retold torn
  obtain ⟨brings, refuses⟩ := reads_back
  have finite : d.IsFinite := by decide +kernel
  obtain ⟨written, eq⟩ : ∃ written, d.toJson = .object written := ⟨_, rfl⟩
  have lastFirst (m m' m'' : String × Json) : [m, m', m''].Perm [m'', m, m'] :=
    .trans (.cons m (.swap m'' m' [])) (.swap m'' m [m'])
  have varied : Relation.ReflTransGen Varies written retold := by
    obtain rfl := Json.object.inj eq
    -- a member can be dropped from the front only, so `directed` is brought there first
    refine .head (.edge (.mk [_] [] (.mk [] [] (.mk (.reorder (lastFirst _ _ _)))))) ?_
    refine .head (.edge (.mk [_] [] (.mk [] [] (.mk (.drop _ List.mem_cons_self))))) ?_
    have colour : "colour" ∉ VertexEntry.keys := by decide
    refine .head (.vertex (.mk [] [_] (.mk [] [_] (.mk (.add .null _ colour))))) ?_
    have title : "title" ∉ keys := by decide
    refine .head (.members (.add (.string "pair") _ title)) ?_
    exact .single (.members (.reorder (lastFirst _ _ _)))
  have inForm : InForm torn := by
    have onlyEdges {key : String} {v : Json} (listed : (key, v) ∈ torn) :
        key = "edges" ∧ v = .array [.object [("head", .integer 0)]] := by
      simpa [torn] using listed
    refine ⟨⟨by decide, ?_, ?_⟩, ?_, ?_⟩
    · intro items inner listed
      exact absurd (onlyEdges listed).1 (by decide)
    · intro items inner listed held
      obtain rfl := Json.array.inj (onlyEdges listed).2
      obtain rfl := Json.object.inj (List.mem_singleton.mp held)
      decide
    · intro items inner listed
      exact absurd (onlyEdges listed).1 (by decide)
    · intro items inner listed held
      obtain rfl := Json.array.inj (onlyEdges listed).2
      exact absurd (List.mem_singleton.mp held) nofun
  have faulty : Faulty torn := by
    refine .inr (.inr ⟨_, _, List.mem_cons_self, List.mem_cons_self, .inr (.inl (.inl ?_))⟩)
    simp [Lacks]
  exact ⟨⟨finite, ⟨written, eq, varied⟩, (brings d finite).2 written retold eq varied⟩,
    inForm, faulty, (refuses torn inForm).mpr faulty⟩

end Description

end SpringLayout
