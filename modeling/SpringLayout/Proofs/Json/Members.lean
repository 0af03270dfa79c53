import Mathlib.Data.List.Nodup
import Mathlib.Logic.Relation
import SpringLayout.Json.Value

/-!
What the members of an object say.

A reader looks its members up by their keys, `optional` and `required` ones. Here it is said without
looking anything up what there is to be found: the member `key` is lacking, or mistyped, or gives a
value. The two accounts agree as long as no key that is asked for stands twice
(`optional_eq_some_iff`, `optional_eq_none_iff`, `required_eq_none_iff`). What a value is to be is a
relation between values and what they mean, such as `IsNumber`; that a reader finds out just that
is `Reads`.

`Varies` takes one step from an object to another that says the same: its members in another order,
one more that nobody asks for, or one less where nothing else is understood without it. `AtKey`,
`OfObject` and `OfItem` take such a step further inside. A reader gives the same answer before and
after each of them, and so after any number of them (`read_eq_of_steps`).
-/

namespace SpringLayout.Json

/-- The members of an object, in the order in which they stand. -/
abbrev Members := List (String × Json)

/-! ### Kinds of values -/

/-- The value is a number. An integer counts as the binary64 number nearest to it. -/
inductive IsNumber : Json → Float → Prop where
  | integer (n : Int) : IsNumber (.integer n) (Float.ofInt n)
  | real (x : Float) : IsNumber (.real x) x

/-- The value is an integer from 0 to `2³² - 1`. -/
inductive IsWord : Json → UInt32 → Prop where
  | integer (w : UInt32) : IsWord (.integer w.toNat) w

/-- The value is a truth value. -/
inductive IsBool : Json → Bool → Prop where
  | bool (b : Bool) : IsBool (.bool b) b

/-- The value is a string. -/
inductive IsString : Json → String → Prop where
  | string (s : String) : IsString (.string s) s

/-- The reader answers what the value means, and nothing where it has no meaning. -/
def Reads {β : Type} (read : Json → Option β) (means : Json → β → Prop) (v : Json) : Prop :=
  ∀ b, read v = some b ↔ means v b

theorem reads_number (v : Json) : Reads number? IsNumber v := by
  intro x
  constructor
  · intro found
    cases v with
    | integer n =>
        obtain rfl : Float.ofInt n = x := Option.some.inj found
        exact .integer n
    | real y =>
        obtain rfl : y = x := Option.some.inj found
        exact .real y
    | _ => cases found
  · rintro (n | y) <;> rfl

theorem word?_ofWord (w : UInt32) : word? (ofWord w) = some w := by
  have bound := w.toNat_lt
  rw [ofWord, word?, if_pos (by omega), Int.toNat_natCast, UInt32.ofNat_toNat]

theorem reads_word (v : Json) : Reads word? IsWord v := by
  intro w
  constructor
  · intro found
    cases v with
    | integer n =>
        rw [word?] at found
        split at found
        · next bounds =>
            obtain ⟨m, rfl⟩ := Int.eq_ofNat_of_zero_le bounds.1
            obtain rfl : UInt32.ofNat m = w := Option.some.inj found
            have exact : (UInt32.ofNat m).toNat = m :=
              UInt32.toNat_ofNat_of_lt' (Int.ofNat_lt.mp bounds.2)
            rw [← exact, UInt32.ofNat_toNat]
            exact .integer _
        · cases found
    | _ => cases found
  · rintro ⟨w⟩
    exact word?_ofWord w

theorem reads_bool (v : Json) : Reads bool? IsBool v := by
  intro b
  constructor
  · intro found
    cases v with
    | bool b' =>
        obtain rfl : b' = b := Option.some.inj found
        exact .bool b'
    | _ => cases found
  · rintro ⟨b⟩
    rfl

theorem reads_string (v : Json) : Reads string? IsString v := by
  intro s
  constructor
  · intro found
    cases v with
    | string s' =>
        obtain rfl : s' = s := Option.some.inj found
        exact .string s'
    | _ => cases found
  · rintro ⟨s⟩
    rfl

theorem Reads.eq_none_iff {β : Type} {read : Json → Option β} {means : Json → β → Prop}
    {v : Json} (reads : Reads read means v) : read v = none ↔ ∀ b, ¬ means v b := by
  rw [Option.eq_none_iff_forall_ne_some]
  exact forall_congr' fun b => not_congr (reads b)

/-! ### What is found under a key -/

/-- No key that is asked for stands twice among the members. -/
def Unrepeated (keys : List String) (members : Members) : Prop :=
  ∀ key ∈ keys, (members.map Prod.fst).count key ≤ 1

instance (keys : List String) (members : Members) : Decidable (Unrepeated keys members) :=
  inferInstanceAs (Decidable (∀ key ∈ keys, _))

/-- There is no member `key`. -/
def Lacks (members : Members) (key : String) : Prop := ∀ v, (key, v) ∉ members

/-- There is a member `key`, and its value is of another kind. -/
def Mistypes {β : Type} (members : Members) (key : String) (means : Json → β → Prop) : Prop :=
  ∃ v, (key, v) ∈ members ∧ ∀ b, ¬ means v b

/-- The member `key` gives `b`; where there is none, `absent` counts as given. -/
inductive Gives {β : Type} (members : Members) (key : String) (means : Json → β → Prop)
    (absent : β) : β → Prop where
  | given {v : Json} {b : β} : (key, v) ∈ members → means v b → Gives members key means absent b
  | lacking : Lacks members key → Gives members key means absent absent

section Kinds

variable {β : Type} {members : Members} {key : String} {means : Json → β → Prop}

theorem not_mistypes_iff :
    ¬ Mistypes members key means ↔ ∀ v, (key, v) ∈ members → ∃ b, means v b := by
  simp only [Mistypes, not_exists, not_and, Classical.not_forall, Classical.not_not]

/-- A key that is not mistyped gives something, if only what counts as given. -/
theorem exists_gives_of_not_mistypes (typed : ¬ Mistypes members key means) (absent : β) :
    ∃ b, Gives members key means absent b := by
  by_cases lacks : Lacks members key
  · exact ⟨absent, .lacking lacks⟩
  · obtain ⟨v, listed⟩ := Classical.not_forall_not.mp lacks
    obtain ⟨b, meant⟩ := not_mistypes_iff.mp typed v listed
    exact ⟨b, .given listed meant⟩

end Kinds

section Lookup

variable {β : Type} {keys : List String} {members : Members} {key : String} {v : Json}

theorem lookup_eq_none_iff : members.lookup key = none ↔ Lacks members key := by
  rw [List.lookup_eq_none_iff]
  constructor
  · intro differ v listed
    exact bne_iff_ne.mp (differ (key, v) listed) rfl
  · rintro lacks ⟨key', v⟩ listed
    exact bne_iff_ne.mpr fun same => lacks v (same ▸ listed)

/-- The value found under a key is that of the only member which has the key. -/
theorem Unrepeated.lookup_eq_some_iff (once : Unrepeated keys members) (asked : key ∈ keys) :
    members.lookup key = some v ↔ (key, v) ∈ members := by
  rw [List.lookup_eq_some_iff]
  constructor
  · rintro ⟨front, back, rfl, -⟩
    exact List.mem_append_right front List.mem_cons_self
  · intro listed
    obtain ⟨front, back, rfl⟩ := List.append_of_mem listed
    refine ⟨front, back, rfl, fun p before => bne_iff_ne.mpr ?_⟩
    rintro rfl
    -- an earlier member of the same key would make two
    have twice := once p.1 asked
    have first := List.count_pos_iff.mpr (List.mem_map_of_mem (f := Prod.fst) before)
    rw [List.map_append, List.count_append, List.map_cons, List.count_cons_self] at twice
    omega

/-- Members for different keys, one for each. -/
theorem unrepeated_of_keys (same : members.map Prod.fst = keys) (differ : keys.Nodup) :
    Unrepeated keys members := by
  intro key _
  rw [same]
  exact List.nodup_iff_count_le_one.mp differ key

theorem Unrepeated.eq_of_mem (once : Unrepeated keys members) (asked : key ∈ keys) {w : Json}
    (first : (key, v) ∈ members) (second : (key, w) ∈ members) : v = w := by
  rw [← once.lookup_eq_some_iff asked] at first second
  exact Option.some.inj (first.symm.trans second)

/-- A key that gives something is not mistyped. -/
theorem Gives.not_mistypes {means : Json → β → Prop} {absent b : β}
    (gives : Gives members key means absent b) (once : Unrepeated keys members)
    (asked : key ∈ keys) : ¬ Mistypes members key means := by
  rintro ⟨v, listed, nothing⟩
  cases gives with
  | given other meant => exact nothing _ (once.eq_of_mem asked other listed ▸ meant)
  | lacking lacks => exact lacks v listed

variable {read : Json → Option β} {absent b : β}

theorem optional_of_lookup (found : members.lookup key = some v) :
    optional members key read absent = read v := by
  rw [optional, found]

theorem required_of_lookup (found : members.lookup key = some v) :
    required members key read = read v := by
  rw [required, found, Option.bind_some]

theorem optional_of_lacks (lacks : Lacks members key) :
    optional members key read absent = some absent := by
  rw [optional, lookup_eq_none_iff.mpr lacks]

variable (once : Unrepeated keys members) (asked : key ∈ keys)
include once asked

theorem optional_eq_none_iff :
    optional members key read absent = none ↔ ∃ v, (key, v) ∈ members ∧ read v = none := by
  cases found : members.lookup key with
  | none =>
      have lacks := lookup_eq_none_iff.mp found
      rw [optional_of_lacks lacks]
      exact iff_of_false nofun fun ⟨v, listed, _⟩ => lacks v listed
  | some v =>
      rw [optional_of_lookup found]
      constructor
      · intro unread
        exact ⟨v, (once.lookup_eq_some_iff asked).mp found, unread⟩
      · rintro ⟨w, listed, unread⟩
        have same := once.eq_of_mem asked listed ((once.lookup_eq_some_iff asked).mp found)
        exact same ▸ unread

theorem required_eq_none_iff :
    required members key read = none ↔
      Lacks members key ∨ ∃ v, (key, v) ∈ members ∧ read v = none := by
  rw [required, Option.bind_eq_none_iff]
  simp only [once.lookup_eq_some_iff asked]
  constructor
  · intro unread
    cases found : members.lookup key with
    | none => exact .inl (lookup_eq_none_iff.mp found)
    | some v =>
        have listed := (once.lookup_eq_some_iff asked).mp found
        exact .inr ⟨v, listed, unread v listed⟩
  · rintro (lacks | ⟨v, listed, unread⟩) w other
    · exact absurd other (lacks w)
    · exact once.eq_of_mem asked listed other ▸ unread

variable {means : Json → β → Prop} (reads : ∀ v, (key, v) ∈ members → Reads read means v)
include reads

theorem optional_eq_some_iff :
    optional members key read absent = some b ↔ Gives members key means absent b := by
  constructor
  · intro eq
    cases found : members.lookup key with
    | none =>
        have lacks := lookup_eq_none_iff.mp found
        obtain rfl := Option.some.inj ((optional_of_lacks lacks).symm.trans eq)
        exact .lacking lacks
    | some v =>
        rw [optional_of_lookup found] at eq
        have listed := (once.lookup_eq_some_iff asked).mp found
        exact .given listed ((reads v listed b).mp eq)
  · rintro (⟨listed, meant⟩ | lacks)
    · rw [optional_of_lookup ((once.lookup_eq_some_iff asked).mpr listed)]
      exact (reads _ listed b).mpr meant
    · exact optional_of_lacks lacks

theorem optional_eq_none_iff_mistypes :
    optional members key read absent = none ↔ Mistypes members key means := by
  rw [optional_eq_none_iff once asked]
  exact exists_congr fun v => and_congr_right fun listed => (reads v listed).eq_none_iff

theorem required_eq_none_iff_mistypes :
    required members key read = none ↔ Lacks members key ∨ Mistypes members key means := by
  rw [required_eq_none_iff once asked]
  refine or_congr_right ?_
  exact exists_congr fun v => and_congr_right fun listed => (reads v listed).eq_none_iff

end Lookup

/-! ### Other members that say the same -/

/-- One step from members to others that say the same to a reader who asks for `keys` only, and who
understands the members `understood` without being told. -/
inductive Varies (keys : List String) (understood : Members) : Members → Members → Prop where
  | reorder {a b : Members} : a.Perm b → Varies keys understood a b
  | add {key : String} (v : Json) (a : Members) : key ∉ keys →
      Varies keys understood a ((key, v) :: a)
  | drop {m : String × Json} (a : Members) : m ∈ understood → Varies keys understood (m :: a) a

namespace Varies

variable {β : Type} {keys : List String} {understood a b : Members} {key : String} {v : Json}
  (varies : Varies keys understood a b)
include varies

theorem unrepeated (once : Unrepeated keys a) : Unrepeated keys b := by
  intro key asked
  have before := once key asked
  cases varies with
  | reorder perm => exact (perm.map Prod.fst).count_eq key ▸ before
  | add v a unknown =>
      rw [List.map_cons, List.count_cons_of_ne (ne_of_mem_of_not_mem asked unknown).symm]
      exact before
  | drop b known => exact Nat.le_trans List.count_le_count_cons before

theorem mem_of_mem (asked : key ∈ keys) (listed : (key, v) ∈ b) : (key, v) ∈ a := by
  cases varies with
  | reorder perm => exact perm.mem_iff.mpr listed
  | add w a unknown =>
      rcases List.mem_cons.mp listed with same | before
      · exact absurd (Prod.mk.inj same).1 (ne_of_mem_of_not_mem asked unknown)
      · exact before
  | drop b known => exact List.mem_cons_of_mem _ listed

theorem mem_or_understood (listed : (key, v) ∈ a) : (key, v) ∈ b ∨ (key, v) ∈ understood := by
  cases varies with
  | reorder perm => exact .inl (perm.mem_iff.mp listed)
  | add w a unknown => exact .inl (List.mem_cons_of_mem _ listed)
  | drop b known =>
      rcases List.mem_cons.mp listed with rfl | kept
      · exact .inr known
      · exact .inl kept

variable (once : Unrepeated keys a) (asked : key ∈ keys)
include once asked

/-- What is asked for is found as before, unless it was understood and has been left out. -/
theorem lookup_eq_or :
    b.lookup key = a.lookup key ∨
      b.lookup key = none ∧ ∃ v, (key, v) ∈ understood ∧ a.lookup key = some v := by
  cases after : b.lookup key with
  | some v =>
      have listed := ((varies.unrepeated once).lookup_eq_some_iff asked).mp after
      exact .inl ((once.lookup_eq_some_iff asked).mpr (varies.mem_of_mem asked listed)).symm
  | none =>
      cases before : a.lookup key with
      | none => exact .inl rfl
      | some v =>
          have listed := (once.lookup_eq_some_iff asked).mp before
          rcases varies.mem_or_understood listed with kept | known
          · exact absurd kept (lookup_eq_none_iff.mp after v)
          · exact .inr ⟨rfl, v, known, rfl⟩

theorem optional_eq {read : Json → Option β} {absent : β}
    (understands : ∀ v, (key, v) ∈ understood → read v = some absent) :
    optional b key read absent = optional a key read absent := by
  rcases varies.lookup_eq_or once asked with same | ⟨gone, v, known, before⟩
  · rw [optional, optional, same]
  · rw [optional_of_lookup before, understands v known, optional, gone]

theorem required_eq {read : Json → Option β} (told : Lacks understood key) :
    required b key read = required a key read := by
  rcases varies.lookup_eq_or once asked with same | ⟨gone, v, known, before⟩
  · rw [required, required, same]
  · exact absurd known (told v)

end Varies

/-! ### The same said further inside -/

/-- A step inside the value of one member. -/
inductive AtKey (key : String) (step : Json → Json → Prop) : Members → Members → Prop where
  | mk {v w : Json} (front back : Members) : step v w →
      AtKey key step (front ++ (key, v) :: back) (front ++ (key, w) :: back)

/-- A step from one object to another. -/
inductive OfObject (step : Members → Members → Prop) : Json → Json → Prop where
  | mk {a b : Members} : step a b → OfObject step (.object a) (.object b)

/-- A step inside one item of an array. -/
inductive OfItem (step : Json → Json → Prop) : Json → Json → Prop where
  | mk {v w : Json} (front back : List Json) : step v w →
      OfItem step (.array (front ++ v :: back)) (.array (front ++ w :: back))

namespace AtKey

variable {β : Type} {key other : String} {step : Json → Json → Prop} {a b : Members} {v : Json}
  (at_key : AtKey key step a b)
include at_key

theorem map_fst_eq : b.map Prod.fst = a.map Prod.fst := by
  obtain ⟨front, back, stepped⟩ := at_key
  rw [List.map_append, List.map_append, List.map_cons, List.map_cons]

theorem unrepeated {keys : List String} (once : Unrepeated keys a) : Unrepeated keys b := by
  rw [Unrepeated, at_key.map_fst_eq]
  exact once

theorem mem_or_step (listed : (other, v) ∈ b) :
    (other, v) ∈ a ∨ other = key ∧ ∃ u, (key, u) ∈ a ∧ step u v := by
  obtain ⟨front, back, stepped⟩ := at_key
  rcases List.mem_append.mp listed with before | after
  · exact .inl (List.mem_append_left _ before)
  · rcases List.mem_cons.mp after with same | behind
    · obtain ⟨rfl, rfl⟩ := Prod.mk.inj same
      exact .inr ⟨rfl, _, List.mem_append_right front List.mem_cons_self, stepped⟩
    · exact .inl (List.mem_append_right front (List.mem_cons_of_mem _ behind))

/-- A reader gives the same answer for the member, or asks for another one. -/
theorem optional_eq {read : Json → Option β} {absent : β}
    (same : other = key → ∀ v w, (key, v) ∈ a → step v w → read w = read v) :
    optional b other read absent = optional a other read absent := by
  obtain ⟨front, back, stepped⟩ := at_key
  rw [optional, optional, List.lookup_append, List.lookup_append, List.lookup_cons,
    List.lookup_cons]
  cases before : front.lookup other with
  | some u => rfl
  | none =>
      by_cases asked : other = key
      · subst asked
        simp only [beq_self_eq_true, Option.none_or]
        exact same rfl _ _ (List.mem_append_right front List.mem_cons_self) stepped
      · simp only [beq_eq_false_iff_ne.mpr asked]

end AtKey

namespace OfItem

variable {β : Type} {step : Json → Json → Prop} {item? : Json → Option β} {item : Json}

theorem mem_or_step {items items' : List Json}
    (stepped : OfItem step (.array items) (.array items')) (listed : item ∈ items') :
    item ∈ items ∨ ∃ old ∈ items, step old item := by
  cases stepped with
  | mk front back stepped =>
      rcases List.mem_append.mp listed with before | after
      · exact .inl (List.mem_append_left _ before)
      · rcases List.mem_cons.mp after with rfl | behind
        · exact .inr ⟨_, List.mem_append_right front List.mem_cons_self, stepped⟩
        · exact .inl (List.mem_append_right front (List.mem_cons_of_mem _ behind))

theorem list?_eq {v w : Json} (stepped : OfItem step v w)
    (same : ∀ items, v = .array items → ∀ old ∈ items, ∀ new, step old new →
      item? new = item? old) : list? item? w = list? item? v := by
  cases stepped with
  | mk front back stepped =>
      have read := same _ rfl _ (List.mem_append_right front List.mem_cons_self) _ stepped
      simp only [list?, List.mapM_append, List.mapM_cons, read]

end OfItem

/-- Where each step preserves an invariant and, under it, what is read, so does any number of
steps. -/
theorem read_eq_of_steps {γ : Type} {step : Members → Members → Prop} {holds : Members → Prop}
    (read : Members → γ) {a b : Members}
    (keeps : ∀ {a b}, step a b → holds a → holds b ∧ read b = read a)
    (steps : Relation.ReflTransGen step a b) (initially : holds a) :
    holds b ∧ read b = read a := by
  induction steps with
  | refl => exact ⟨initially, rfl⟩
  | tail _ stepped ih =>
      obtain ⟨still, same⟩ := keeps stepped ih.1
      exact ⟨still, same.trans ih.2⟩

end SpringLayout.Json
