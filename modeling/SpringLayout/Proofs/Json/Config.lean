import SpringLayout.Json.Config
import SpringLayout.Proofs.Json.Parts

/-!
Reading configurations, of which any part may be left out.

`Config.SaidBy` is the configuration that an object speaks of: for each of its keys the value given,
and the standard one where none is. `Config.WellTyped` says when there is one at all. Both are about
objects `InForm`, in which no key that is asked for is repeated. `Config.part` is a written
configuration less some of its keys, of those of its viewport too.

Main statement: `Config.reads_parts`. What is read is what the object speaks of, other keys and the
order of all play no part in it, and a part of a written configuration brings back what was kept.
-/

namespace SpringLayout

open Json

/-! ### What is spoken of -/

/-- The keys of a viewport. -/
def Viewport.keys : List String := ["left", "top", "right", "bottom"]

/-- The keys of a configuration whose values are numbers. -/
def Config.numberKeys : List String :=
  ["restLength", "springStiffness", "repulsion", "damping", "minForce", "minDistance"]

/-- The keys of a configuration whose values are words. -/
def Config.wordKeys : List String := ["stepsPerFrame", "maxIterations"]

/-- The keys of a configuration. -/
def Config.keys : List String :=
  numberKeys ++ wordKeys ++ ["initialLayout", "viewport"]

namespace Json

/-- The value names an initial layout. -/
inductive IsInitialLayout : Json → InitialLayout → Prop where
  | hints : IsInitialLayout (.string "hints") .hints
  | staggered : IsInitialLayout (.string "staggered") .staggered

/-- The value is a viewport. A side that is not given is where the standard one is. -/
inductive IsViewport : Json → Viewport Float → Prop where
  | object {sides : Members} {v : Viewport Float} :
      Gives sides "left" IsNumber (Viewport.standard : Viewport Float).left v.left →
      Gives sides "top" IsNumber (Viewport.standard : Viewport Float).top v.top →
      Gives sides "right" IsNumber (Viewport.standard : Viewport Float).right v.right →
      Gives sides "bottom" IsNumber (Viewport.standard : Viewport Float).bottom v.bottom →
      IsViewport (.object sides) v

end Json

namespace Config

/-- The members speak of this configuration. -/
structure SaidBy (members : Members) (c : Config Float) : Prop where
  restLength : Gives members "restLength" IsNumber (standard : Config Float).restLength c.restLength
  springStiffness :
    Gives members "springStiffness" IsNumber (standard : Config Float).springStiffness
      c.springStiffness
  repulsion : Gives members "repulsion" IsNumber (standard : Config Float).repulsion c.repulsion
  damping : Gives members "damping" IsNumber (standard : Config Float).damping c.damping
  minForce : Gives members "minForce" IsNumber (standard : Config Float).minForce c.minForce
  minDistance :
    Gives members "minDistance" IsNumber (standard : Config Float).minDistance c.minDistance
  stepsPerFrame :
    Gives members "stepsPerFrame" IsWord (standard : Config Float).stepsPerFrame c.stepsPerFrame
  maxIterations :
    Gives members "maxIterations" IsWord (standard : Config Float).maxIterations c.maxIterations
  initialLayout :
    Gives members "initialLayout" IsInitialLayout (standard : Config Float).initialLayout
      c.initialLayout
  viewport : Gives members "viewport" IsViewport (standard : Config Float).viewport c.viewport

/-- Every member that a configuration has a use for has a value of its kind. -/
structure WellTyped (members : Members) : Prop where
  numbers : ∀ key ∈ numberKeys, ¬ Mistypes members key IsNumber
  words : ∀ key ∈ wordKeys, ¬ Mistypes members key IsWord
  initialLayout : ∀ v, ("initialLayout", v) ∈ members →
    v = .string "hints" ∨ v = .string "staggered"
  viewport : ∀ v, ("viewport", v) ∈ members →
    ∃ sides, v = .object sides ∧ ∀ key ∈ Viewport.keys, ¬ Mistypes sides key IsNumber

/-- No key that is asked for is repeated, in the configuration or in its viewport. -/
structure Unrepeated (members : Members) : Prop where
  keys : Json.Unrepeated Config.keys members
  sides : ∀ sides, ("viewport", .object sides) ∈ members → Json.Unrepeated Viewport.keys sides

/-- The object is one of those whose reading is settled by the names of their members: a viewport
that lists its sides without naming them, and a layout that is the name of a member, are left out of
account. -/
structure InForm (members : Members) : Prop extends Unrepeated members where
  viewport : ∀ items, ("viewport", .array items) ∉ members
  initialLayout : ∀ inner, ("initialLayout", .object inner) ∉ members

end Config

/-! ### Reading what is spoken of -/

theorem Json.reads_initialLayout (v : Json) : Reads InitialLayout.ofJson? IsInitialLayout v := by
  intro layout
  constructor
  · intro found
    unfold InitialLayout.ofJson? at found
    split at found
    · obtain rfl := Option.some.inj found
      exact .hints
    · obtain rfl := Option.some.inj found
      exact .staggered
    · cases found
  · rintro (_ | _) <;> rfl

theorem Viewport.ofJson?_object_eq_some_iff {sides : Members} {v : Viewport Float}
    (once : Json.Unrepeated Viewport.keys sides) :
    Viewport.ofJson? (.object sides) = some v ↔ IsViewport (.object sides) v := by
  have side {key : String} (asked : key ∈ Viewport.keys) {absent x : Float} :
      optional sides key number? absent = some x ↔ Gives sides key IsNumber absent x :=
    optional_eq_some_iff once asked fun v _ => reads_number v
  simp only [Viewport.ofJson?, members?, Option.bind_eq_bind, Option.bind_some,
    Option.bind_eq_some_iff, Option.pure_def, Option.some.injEq]
  constructor
  · rintro ⟨left, isLeft, top, isTop, right, isRight, bottom, isBottom, rfl⟩
    exact .object ((side (by decide)).mp isLeft) ((side (by decide)).mp isTop)
      ((side (by decide)).mp isRight) ((side (by decide)).mp isBottom)
  · rintro ⟨isLeft, isTop, isRight, isBottom⟩
    exact ⟨_, (side (by decide)).mpr isLeft, _, (side (by decide)).mpr isTop,
      _, (side (by decide)).mpr isRight, _, (side (by decide)).mpr isBottom, rfl⟩

theorem Viewport.reads_viewport {members : Members} (once : Config.Unrepeated members) (v : Json)
    (listed : ("viewport", v) ∈ members) : Reads Viewport.ofJson? IsViewport v := by
  intro r
  cases v with
  | object sides => exact Viewport.ofJson?_object_eq_some_iff (once.sides sides listed)
  | _ => exact iff_of_false nofun nofun

namespace Config

variable {members : Members}

theorem ofJson?_object_eq_some_iff (once : Unrepeated members) {c : Config Float} :
    Config.ofJson? (.object members) = some c ↔ SaidBy members c := by
  have number {key : String} (asked : key ∈ keys) {absent x : Float} :
      optional members key number? absent = some x ↔ Gives members key IsNumber absent x :=
    optional_eq_some_iff once.keys asked fun v _ => reads_number v
  have word {key : String} (asked : key ∈ keys) {absent w : UInt32} :
      optional members key word? absent = some w ↔ Gives members key IsWord absent w :=
    optional_eq_some_iff once.keys asked fun v _ => reads_word v
  have layout {absent l : InitialLayout} :
      optional members "initialLayout" InitialLayout.ofJson? absent = some l ↔
        Gives members "initialLayout" IsInitialLayout absent l :=
    optional_eq_some_iff once.keys (by decide) fun v _ => reads_initialLayout v
  have viewport {absent r : Viewport Float} :
      optional members "viewport" Viewport.ofJson? absent = some r ↔
        Gives members "viewport" IsViewport absent r :=
    optional_eq_some_iff once.keys (by decide) (Viewport.reads_viewport once)
  simp only [Config.ofJson?, members?, Option.bind_eq_bind, Option.bind_some,
    Option.bind_eq_some_iff, Option.pure_def, Option.some.injEq]
  constructor
  · rintro ⟨_, restLength, _, springStiffness, _, repulsion, _, damping, _, minForce,
      _, minDistance, _, stepsPerFrame, _, maxIterations, _, initialLayout, _, shown, rfl⟩
    exact {
      restLength := (number (by decide)).mp restLength
      springStiffness := (number (by decide)).mp springStiffness
      repulsion := (number (by decide)).mp repulsion
      damping := (number (by decide)).mp damping
      minForce := (number (by decide)).mp minForce
      minDistance := (number (by decide)).mp minDistance
      stepsPerFrame := (word (by decide)).mp stepsPerFrame
      maxIterations := (word (by decide)).mp maxIterations
      initialLayout := layout.mp initialLayout
      viewport := viewport.mp shown }
  · intro said
    exact ⟨_, (number (by decide)).mpr said.restLength,
      _, (number (by decide)).mpr said.springStiffness,
      _, (number (by decide)).mpr said.repulsion,
      _, (number (by decide)).mpr said.damping,
      _, (number (by decide)).mpr said.minForce,
      _, (number (by decide)).mpr said.minDistance,
      _, (word (by decide)).mpr said.stepsPerFrame,
      _, (word (by decide)).mpr said.maxIterations,
      _, layout.mpr said.initialLayout,
      _, viewport.mpr said.viewport, rfl⟩

end Config

/-! ### Whether there is anything to read -/

theorem Json.exists_isInitialLayout_iff {v : Json} :
    (∃ l, IsInitialLayout v l) ↔ v = .string "hints" ∨ v = .string "staggered" := by
  constructor
  · rintro ⟨l, _ | _⟩
    · exact .inl rfl
    · exact .inr rfl
  · rintro (rfl | rfl)
    · exact ⟨_, .hints⟩
    · exact ⟨_, .staggered⟩

theorem Json.exists_isViewport_object_iff {sides : Members}
    (once : Json.Unrepeated Viewport.keys sides) :
    (∃ v, IsViewport (.object sides) v) ↔ ∀ key ∈ Viewport.keys, ¬ Mistypes sides key IsNumber := by
  constructor
  · rintro ⟨v, left, top, right, bottom⟩
    simp only [Viewport.keys, List.forall_mem_cons]
    exact ⟨left.not_mistypes once (by decide), top.not_mistypes once (by decide),
      right.not_mistypes once (by decide), bottom.not_mistypes once (by decide), nofun⟩
  · intro typed
    have side {key : String} (asked : key ∈ Viewport.keys) (absent : Float) :
        ∃ x, Gives sides key IsNumber absent x :=
      exists_gives_of_not_mistypes (typed key asked) absent
    obtain ⟨left, isLeft⟩ := side (by decide : "left" ∈ Viewport.keys) _
    obtain ⟨top, isTop⟩ := side (by decide : "top" ∈ Viewport.keys) _
    obtain ⟨right, isRight⟩ := side (by decide : "right" ∈ Viewport.keys) _
    obtain ⟨bottom, isBottom⟩ := side (by decide : "bottom" ∈ Viewport.keys) _
    exact ⟨⟨left, top, right, bottom⟩, .object isLeft isTop isRight isBottom⟩

namespace Config

variable {members : Members}

/-- Viewports are well typed just where there is something to be read from each. -/
theorem not_mistypes_viewport_iff (once : Unrepeated members) :
    ¬ Mistypes members "viewport" IsViewport ↔
      ∀ v, ("viewport", v) ∈ members →
        ∃ sides, v = .object sides ∧ ∀ key ∈ Viewport.keys, ¬ Mistypes sides key IsNumber := by
  rw [not_mistypes_iff]
  refine forall_congr' fun v => forall_congr' fun listed => ?_
  constructor
  · rintro ⟨r, isViewport⟩
    cases isViewport with
    | @object sides _ left top right bottom =>
        have found := exists_isViewport_object_iff (once.sides sides listed)
        exact ⟨sides, rfl, found.mp ⟨r, .object left top right bottom⟩⟩
  · rintro ⟨sides, rfl, typed⟩
    exact (exists_isViewport_object_iff (once.sides sides listed)).mpr typed

/-- There is a configuration to be read just where every member is of its kind. -/
theorem exists_saidBy_iff (once : Unrepeated members) :
    (∃ c, SaidBy members c) ↔ WellTyped members := by
  constructor
  · rintro ⟨c, said⟩
    constructor
    · simp only [numberKeys, List.forall_mem_cons]
      exact ⟨said.restLength.not_mistypes once.keys (by decide),
        said.springStiffness.not_mistypes once.keys (by decide),
        said.repulsion.not_mistypes once.keys (by decide),
        said.damping.not_mistypes once.keys (by decide),
        said.minForce.not_mistypes once.keys (by decide),
        said.minDistance.not_mistypes once.keys (by decide), nofun⟩
    · simp only [wordKeys, List.forall_mem_cons]
      exact ⟨said.stepsPerFrame.not_mistypes once.keys (by decide),
        said.maxIterations.not_mistypes once.keys (by decide), nofun⟩
    · intro v listed
      have typed := said.initialLayout.not_mistypes once.keys (by decide)
      exact exists_isInitialLayout_iff.mp (not_mistypes_iff.mp typed v listed)
    · exact (not_mistypes_viewport_iff once).mp (said.viewport.not_mistypes once.keys (by decide))
  · intro typed
    have number {key : String} (isNumber : key ∈ numberKeys) (absent : Float) :
        ∃ x, Gives members key IsNumber absent x :=
      exists_gives_of_not_mistypes (typed.numbers key isNumber) absent
    have word {key : String} (isWord : key ∈ wordKeys) (absent : UInt32) :
        ∃ w, Gives members key IsWord absent w :=
      exists_gives_of_not_mistypes (typed.words key isWord) absent
    have namesLayout : ¬ Mistypes members "initialLayout" IsInitialLayout :=
      not_mistypes_iff.mpr fun v listed =>
        exists_isInitialLayout_iff.mpr (typed.initialLayout v listed)
    obtain ⟨_, restLength⟩ := number (by decide : "restLength" ∈ numberKeys) _
    obtain ⟨_, springStiffness⟩ := number (by decide : "springStiffness" ∈ numberKeys) _
    obtain ⟨_, repulsion⟩ := number (by decide : "repulsion" ∈ numberKeys) _
    obtain ⟨_, damping⟩ := number (by decide : "damping" ∈ numberKeys) _
    obtain ⟨_, minForce⟩ := number (by decide : "minForce" ∈ numberKeys) _
    obtain ⟨_, minDistance⟩ := number (by decide : "minDistance" ∈ numberKeys) _
    obtain ⟨_, stepsPerFrame⟩ := word (by decide : "stepsPerFrame" ∈ wordKeys) _
    obtain ⟨_, maxIterations⟩ := word (by decide : "maxIterations" ∈ wordKeys) _
    obtain ⟨_, initialLayout⟩ := exists_gives_of_not_mistypes namesLayout _
    obtain ⟨_, viewport⟩ :=
      exists_gives_of_not_mistypes ((not_mistypes_viewport_iff once).mpr typed.viewport) _
    exact ⟨⟨_, _, _, _, _, _, _, _, _, _⟩, restLength, springStiffness, repulsion, damping,
      minForce, minDistance, stepsPerFrame, maxIterations, initialLayout, viewport⟩

end Config

/-! ### Other keys and the order of all -/

/-- One step from a configuration to others that say the same: members in another order, or one more
that is not asked for, in the configuration or in its viewport. -/
inductive Config.Varies : Members → Members → Prop where
  | members {a b : Members} : Json.Varies keys [] a b → Varies a b
  | sides {a b : Members} :
      AtKey "viewport" (OfObject (Json.Varies Viewport.keys [])) a b → Varies a b

theorem Viewport.ofJson?_of_varies {a b : Members} (varies : Json.Varies Viewport.keys [] a b)
    (once : Json.Unrepeated Viewport.keys a) :
    Viewport.ofJson? (.object b) = Viewport.ofJson? (.object a) := by
  have same {key : String} (asked : key ∈ Viewport.keys) {absent : Float} :
      optional b key number? absent = optional a key number? absent :=
    varies.optional_eq once asked nofun
  simp only [Viewport.ofJson?, members?, Option.bind_eq_bind, Option.bind_some]
  rw [same (by decide : "left" ∈ _), same (by decide : "top" ∈ _),
    same (by decide : "right" ∈ _), same (by decide : "bottom" ∈ _)]

namespace Config

variable {a b : Members}

/-- Nothing but what is found under the keys is looked at. -/
theorem ofJson?_congr
    (plain : ∀ {β : Type} (read : Json → Option β) (absent : β), ∀ key ∈ keys, key ≠ "viewport" →
      optional b key read absent = optional a key read absent)
    (viewport : ∀ absent, optional b "viewport" Viewport.ofJson? absent =
      optional a "viewport" Viewport.ofJson? absent) :
    Config.ofJson? (.object b) = Config.ofJson? (.object a) := by
  have same {β : Type} {read : Json → Option β} {absent : β} (key : String)
      (asked : key ∈ keys ∧ key ≠ "viewport") :
      optional b key read absent = optional a key read absent :=
    plain read absent key asked.1 asked.2
  simp only [Config.ofJson?, members?, Option.bind_eq_bind, Option.bind_some]
  rw [same "restLength" (by decide), same "springStiffness" (by decide),
    same "repulsion" (by decide), same "damping" (by decide), same "minForce" (by decide),
    same "minDistance" (by decide), same "stepsPerFrame" (by decide),
    same "maxIterations" (by decide), same "initialLayout" (by decide), viewport]

namespace Varies

variable (varies : Varies a b) (once : Unrepeated a)
include varies once

theorem unrepeated : Unrepeated b := by
  cases varies with
  | members varies =>
      refine ⟨varies.unrepeated once.keys, fun sides listed => ?_⟩
      exact once.sides sides (varies.mem_of_mem (by decide) listed)
  | sides at_key =>
      refine ⟨at_key.unrepeated once.keys, fun sides listed => ?_⟩
      rcases at_key.mem_or_step listed with before | ⟨-, v, before, ⟨varies⟩⟩
      · exact once.sides sides before
      · exact varies.unrepeated (once.sides _ before)

theorem ofJson?_eq : Config.ofJson? (.object b) = Config.ofJson? (.object a) := by
  cases varies with
  | members varies =>
      refine ofJson?_congr (fun read absent key asked _ => ?_) fun absent => ?_
      · exact varies.optional_eq once.keys asked nofun
      · exact varies.optional_eq once.keys (by decide) nofun
  | sides at_key =>
      refine ofJson?_congr (fun read absent key _ other => ?_) fun absent => ?_
      · exact at_key.optional_eq fun same => absurd same other
      · refine at_key.optional_eq fun _ v w listed stepped => ?_
        cases stepped with
        | mk varies => exact Viewport.ofJson?_of_varies varies (once.sides _ listed)

end Varies

/-- However a configuration is varied, what is read from it stays the same. -/
theorem ofJson?_of_varied (varied : Relation.ReflTransGen Varies a b) (once : Unrepeated a) :
    Config.ofJson? (.object b) = Config.ofJson? (.object a) := by
  refine (read_eq_of_steps (fun members => Config.ofJson? (.object members)) ?_ varied once).2
  exact fun varies once => ⟨varies.unrepeated once, varies.ofJson?_eq once⟩

end Config

/-! ### Parts of what is written -/

/-- Every side is a finite number. -/
structure Viewport.IsFinite (v : Viewport Float) : Prop where
  left : v.left.isFinite = true
  top : v.top.isFinite = true
  right : v.right.isFinite = true
  bottom : v.bottom.isFinite = true

instance (v : Viewport Float) : Decidable v.IsFinite :=
  decidable_of_iff (v.left.isFinite = true ∧ v.top.isFinite = true ∧ v.right.isFinite = true ∧
      v.bottom.isFinite = true)
    ⟨fun ⟨left, top, right, bottom⟩ => ⟨left, top, right, bottom⟩,
      fun ⟨left, top, right, bottom⟩ => ⟨left, top, right, bottom⟩⟩

/-- Some sides of a viewport, the others being where the standard ones are. -/
def Viewport.keep (sides : String → Bool) (v : Viewport Float) : Viewport Float :=
  let standard : Viewport Float := Viewport.standard
  { left := if sides "left" then v.left else standard.left
    top := if sides "top" then v.top else standard.top
    right := if sides "right" then v.right else standard.right
    bottom := if sides "bottom" then v.bottom else standard.bottom }

namespace Config

/-- Every parameter that can be infinite or a NaN is a finite number. -/
structure IsFinite (c : Config Float) : Prop where
  restLength : c.restLength.isFinite = true
  springStiffness : c.springStiffness.isFinite = true
  repulsion : c.repulsion.isFinite = true
  damping : c.damping.isFinite = true
  minForce : c.minForce.isFinite = true
  minDistance : c.minDistance.isFinite = true
  viewport : c.viewport.IsFinite

instance (c : Config Float) : Decidable c.IsFinite :=
  decidable_of_iff (c.restLength.isFinite = true ∧ c.springStiffness.isFinite = true ∧
      c.repulsion.isFinite = true ∧ c.damping.isFinite = true ∧ c.minForce.isFinite = true ∧
      c.minDistance.isFinite = true ∧ c.viewport.IsFinite)
    ⟨fun ⟨restLength, springStiffness, repulsion, damping, minForce, minDistance, viewport⟩ =>
        ⟨restLength, springStiffness, repulsion, damping, minForce, minDistance, viewport⟩,
      fun ⟨restLength, springStiffness, repulsion, damping, minForce, minDistance, viewport⟩ =>
        ⟨restLength, springStiffness, repulsion, damping, minForce, minDistance, viewport⟩⟩

/-- Some parameters of a configuration and some sides of its viewport, the others being the standard
ones. -/
def keep (outer sides : String → Bool) (c : Config Float) : Config Float :=
  let standard : Config Float := Config.standard
  { restLength := if outer "restLength" then c.restLength else standard.restLength
    springStiffness :=
      if outer "springStiffness" then c.springStiffness else standard.springStiffness
    repulsion := if outer "repulsion" then c.repulsion else standard.repulsion
    damping := if outer "damping" then c.damping else standard.damping
    minForce := if outer "minForce" then c.minForce else standard.minForce
    minDistance := if outer "minDistance" then c.minDistance else standard.minDistance
    stepsPerFrame := if outer "stepsPerFrame" then c.stepsPerFrame else standard.stepsPerFrame
    maxIterations := if outer "maxIterations" then c.maxIterations else standard.maxIterations
    initialLayout := if outer "initialLayout" then c.initialLayout else standard.initialLayout
    viewport := if outer "viewport" then c.viewport.keep sides else standard.viewport }

/-- A configuration written down, less the keys that are not among `outer` and, in its viewport, not
among `sides`. -/
def part (outer sides : String → Bool) (c : Config Float) : Json :=
  (c.toJson.within "viewport" (only sides)).only outer

end Config

namespace Viewport

variable (sides : String → Bool) (v : Viewport Float)

theorem unrepeated_toJson {inner : Members} (written : v.toJson = .object inner) :
    Json.Unrepeated keys inner := by
  obtain rfl := Json.object.inj written
  exact unrepeated_of_keys rfl (by decide)

theorem isViewport_only_toJson : IsViewport (v.toJson.only sides) (v.keep sides) := by
  refine .object ?_ ?_ ?_ ?_
  · exact gives_filter sides (by simp) (.real v.left)
  · exact gives_filter sides (by simp) (.real v.top)
  · exact gives_filter sides (by simp) (.real v.right)
  · exact gives_filter sides (by simp) (.real v.bottom)

theorem hasText_toJson (finite : v.IsFinite) : v.toJson.HasText := by
  refine .object ?_
  simp only [List.forall_mem_cons]
  exact ⟨.real finite.left, .real finite.top, .real finite.right, .real finite.bottom, nofun⟩

end Viewport

theorem Json.isInitialLayout_toJson (l : InitialLayout) : IsInitialLayout l.toJson l := by
  cases l with
  | hints => exact .hints
  | staggered => exact .staggered

namespace Config

variable (outer sides : String → Bool) (c : Config Float)

theorem hasText_toJson (finite : c.IsFinite) : c.toJson.HasText := by
  refine .object ?_
  simp only [List.forall_mem_cons]
  refine ⟨.real finite.restLength, .real finite.springStiffness, .real finite.repulsion,
    .real finite.damping, .real finite.minForce, .real finite.minDistance, .integer _, .integer _,
    ?_, c.viewport.hasText_toJson finite.viewport, nofun⟩
  cases c.initialLayout with
  | hints => exact .string _
  | staggered => exact .string _

theorem hasText_part (finite : c.IsFinite) : (c.part outer sides).HasText :=
  ((c.hasText_toJson finite).within _ fun text => text.only sides).only outer

section Written

variable {c} {written : Members} (eq : c.toJson = .object written)
include eq

theorem part_eq_object :
    c.part outer sides =
      .object ((mapAt "viewport" (only sides) written).filter fun m => outer m.1) := by
  rw [part, eq]
  rfl

theorem unrepeated_part :
    Unrepeated ((mapAt "viewport" (only sides) written).filter fun m => outer m.1) := by
  constructor
  · have whole : Json.Unrepeated keys written := by
      obtain rfl := Json.object.inj eq
      exact unrepeated_of_keys rfl (by decide)
    exact (whole.mapAt _ _).filter _
  · intro inner listed
    obtain rfl := Json.object.inj eq
    have listed := (List.mem_filter.mp listed).1
    rw [mem_mapAt_iff, if_pos rfl] at listed
    obtain ⟨v, listed, changed⟩ := listed
    obtain rfl : v = c.viewport.toJson := by simpa using listed
    obtain rfl := Json.object.inj changed
    exact (c.viewport.unrepeated_toJson rfl).filter sides

/-- A part of a written configuration speaks of what was kept. -/
theorem saidBy_part :
    SaidBy ((mapAt "viewport" (only sides) written).filter fun m => outer m.1)
      (c.keep outer sides) := by
  -- nothing but the viewport is changed before the keys are chosen
  have kept {β : Type} {key : String} {v : Json} {means : Json → β → Prop} {absent b : β}
      (other : key ≠ "viewport") (listed : (key, v) ∈ written) (meant : means v b) :
      Gives ((mapAt "viewport" (only sides) written).filter fun m => outer m.1) key means absent
        (if outer key then b else absent) :=
    gives_filter outer (mem_mapAt_iff.mpr (by rwa [if_neg other])) meant
  obtain rfl := Json.object.inj eq
  constructor
  · exact kept (by decide) (by simp) (.real c.restLength)
  · exact kept (by decide) (by simp) (.real c.springStiffness)
  · exact kept (by decide) (by simp) (.real c.repulsion)
  · exact kept (by decide) (by simp) (.real c.damping)
  · exact kept (by decide) (by simp) (.real c.minForce)
  · exact kept (by decide) (by simp) (.real c.minDistance)
  · exact kept (by decide) (by simp [ofWord]) (.integer c.stepsPerFrame)
  · exact kept (by decide) (by simp [ofWord]) (.integer c.maxIterations)
  · exact kept (by decide) (by simp) (isInitialLayout_toJson c.initialLayout)
  · refine gives_filter outer ?_ (c.viewport.isViewport_only_toJson sides)
    rw [mem_mapAt_iff, if_pos rfl]
    exact ⟨c.viewport.toJson, by simp, rfl⟩

end Written

theorem ofJson?_part : Config.ofJson? (c.part outer sides) = some (c.keep outer sides) := by
  obtain ⟨written, eq⟩ : ∃ written, c.toJson = .object written := ⟨_, rfl⟩
  rw [part_eq_object outer sides eq, ofJson?_object_eq_some_iff (unrepeated_part outer sides eq)]
  exact saidBy_part outer sides eq

theorem part_all : c.part (fun _ => true) (fun _ => true) = c.toJson := by
  simp [part, toJson, within, mapAt, only, Viewport.toJson]

/-- What is read from an object. -/
structure Reading (members : Members) : Prop where
  /-- Something is read where every member that is asked for has a value of its kind. -/
  readable_iff : (∃ c, Config.ofJson? (.object members) = some c) ↔ WellTyped members
  eq_some_iff : ∀ c, Config.ofJson? (.object members) = some c ↔ SaidBy members c
  /-- Keys that are not asked for, and the order of all keys, make no difference. -/
  varied : ∀ others, Relation.ReflTransGen Varies members others →
    Config.ofJson? (.object others) = Config.ofJson? (.object members)

/-- From an object is read what it speaks of, with the standard value for whatever it leaves out.
Whatever part of a configuration is written down, that part is read back. -/
theorem reads_parts :
    (∀ members, InForm members → Reading members) ∧
    ∀ c : Config Float, c.IsFinite →
      (∀ outer sides : String → Bool, (c.part outer sides).HasText ∧
        Config.ofJson? (c.part outer sides) = some (c.keep outer sides)) ∧
      c.toJson.HasText ∧ Config.ofJson? c.toJson = some c := by
  constructor
  · intro members inForm
    have once := inForm.toUnrepeated
    have found (c : Config Float) := ofJson?_object_eq_some_iff once (c := c)
    exact {
      readable_iff := (exists_congr found).trans (exists_saidBy_iff once)
      eq_some_iff := found
      varied := fun others varied => ofJson?_of_varied varied once }
  · intro c finite
    refine ⟨fun outer sides => ?_, c.hasText_toJson finite, ?_⟩
    · exact ⟨c.hasText_part outer sides finite, c.ofJson?_part outer sides⟩
    · rw [← c.part_all]
      exact c.ofJson?_part _ _

/-- A viewport with one side given among a key that no viewport has, a layout, and the greatest
count of iterations, in no order; and a configuration of which two keys and one side are enough. -/
theorem reads_parts_sparse :
    let members : Members :=
      [("viewport", .object [("top", .integer 40), ("depth", .null)]),
        ("maxIterations", .integer 4294967295), ("Damping", .string "none"),
        ("initialLayout", .string "staggered")]
    let c : Config Float :=
      { (standard : Config Float) with damping := 3, viewport := ⟨25, 25, 900, 450⟩ }
    let outer := fun key => key == "damping" || key == "viewport"
    let sides := fun key => key == "right"
    (InForm members ∧ Reading members ∧
      Config.ofJson? (.object members) =
        some { (standard : Config Float) with
          maxIterations := 4294967295
          initialLayout := .staggered
          viewport := { (Viewport.standard : Viewport Float) with top := Float.ofInt 40 } }) ∧
    c.IsFinite ∧ Config.ofJson? (c.part outer sides) = some c ∧
      Config.ofJson? c.toJson = some c := by
  intro members c outer sides
  have inForm : InForm members := by
    refine ⟨⟨by decide, fun sides listed => ?_⟩, fun items listed => ?_, fun inner listed => ?_⟩
    · obtain rfl : sides = [("top", .integer 40), ("depth", .null)] := by
        simpa [members] using listed
      decide
    · simp [members] at listed
    · simp [members] at listed
  have finite : c.IsFinite := by decide +kernel
  obtain ⟨reads, brings⟩ := reads_parts
  obtain ⟨parts, -, whole⟩ := brings c finite
  exact ⟨⟨inForm, reads members inForm, rfl⟩, finite, (parts outer sides).2, whole⟩

end Config

end SpringLayout
