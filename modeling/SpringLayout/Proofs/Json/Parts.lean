import SpringLayout.Proofs.Json.Members

/-!
Parts of a written object.

`only` leaves the members of some keys, `within` does something to the value of one. A part gives
what the whole gives where the key is kept, and nothing elsewhere (`gives_filter`). A value that
holds no infinity and no NaN has a text (`HasText`), and so have its parts.
-/

namespace SpringLayout.Json

/-- The value can be written as text: every number in it is finite. -/
inductive HasText : Json → Prop where
  | null : HasText .null
  | bool (b : Bool) : HasText (.bool b)
  | integer (n : Int) : HasText (.integer n)
  | real {x : Float} : x.isFinite = true → HasText (.real x)
  | string (s : String) : HasText (.string s)
  | array {items : List Json} : (∀ item ∈ items, HasText item) → HasText (.array items)
  | object {members : Members} : (∀ m ∈ members, HasText m.2) → HasText (.object members)

/-- The members of some of the keys. Anything but an object stays as it is. -/
def only (keep : String → Bool) : Json → Json
  | .object members => .object (members.filter fun m => keep m.1)
  | v => v

/-- The members, with something done to the value of those with the key. -/
def mapAt (key : String) (change : Json → Json) (members : Members) : Members :=
  members.map fun m => if m.1 = key then (m.1, change m.2) else m

/-- An object with something done to the value of a member. Anything but an object stays as it
is. -/
def within (key : String) (change : Json → Json) : Json → Json
  | .object members => .object (mapAt key change members)
  | v => v

section Members

variable {β : Type} {keys : List String} {members : Members} {key other : String} {v : Json}
  {change : Json → Json}

theorem Unrepeated.filter (once : Unrepeated keys members) (keep : String → Bool) :
    Unrepeated keys (members.filter fun m => keep m.1) := by
  intro key asked
  exact Nat.le_trans ((List.filter_sublist.map Prod.fst).count_le key) (once key asked)

theorem map_fst_mapAt (key : String) (change : Json → Json) (members : Members) :
    (mapAt key change members).map Prod.fst = members.map Prod.fst := by
  rw [mapAt, List.map_map]
  refine List.map_congr_left fun m _ => ?_
  rw [Function.comp_apply]
  split <;> rfl

theorem Unrepeated.mapAt (once : Unrepeated keys members) (key : String) (change : Json → Json) :
    Unrepeated keys (mapAt key change members) := by
  rw [Unrepeated, map_fst_mapAt]
  exact once

theorem mem_mapAt_iff {w : Json} :
    (other, w) ∈ mapAt key change members ↔
      if other = key then ∃ v, (key, v) ∈ members ∧ change v = w else (other, w) ∈ members := by
  rw [mapAt, List.mem_map]
  split
  · next same =>
      subst same
      constructor
      · rintro ⟨⟨first, v⟩, listed, eq⟩
        split at eq
        · next same =>
            obtain ⟨-, rfl⟩ := Prod.mk.inj eq
            exact ⟨v, same ▸ listed, rfl⟩
        · next differ => exact absurd (Prod.mk.inj eq).1 differ
      · rintro ⟨v, listed, rfl⟩
        exact ⟨_, listed, if_pos rfl⟩
  · next differ =>
      constructor
      · rintro ⟨⟨first, v⟩, listed, eq⟩
        split at eq
        · next same => exact absurd ((Prod.mk.inj eq).1.symm.trans same) differ
        · exact eq ▸ listed
      · intro listed
        exact ⟨_, listed, if_neg differ⟩

/-- A part gives what the whole gives, if the key is kept. -/
theorem gives_filter {means : Json → β → Prop} {absent b : β} (keep : String → Bool)
    (listed : (key, v) ∈ members) (meant : means v b) :
    Gives (members.filter fun m => keep m.1) key means absent (if keep key then b else absent) := by
  by_cases kept : keep key = true
  · rw [if_pos kept]
    exact .given (List.mem_filter.mpr ⟨listed, kept⟩) meant
  · rw [if_neg kept]
    exact .lacking fun w left => kept (List.mem_filter.mp left).2

end Members

theorem HasText.only {v : Json} (text : v.HasText) (keep : String → Bool) :
    (v.only keep).HasText := by
  cases text with
  | object members => exact .object fun m kept => members m (List.mem_filter.mp kept).1
  | null => exact .null
  | bool b => exact .bool b
  | integer n => exact .integer n
  | real finite => exact .real finite
  | string s => exact .string s
  | array items => exact .array items

theorem HasText.within {v : Json} (text : v.HasText) (key : String) {change : Json → Json}
    (keeps : ∀ {v : Json}, v.HasText → (change v).HasText) : (v.within key change).HasText := by
  cases text with
  | object members =>
      refine .object fun m listed => ?_
      obtain ⟨old, before, rfl⟩ := List.mem_map.mp listed
      split
      · exact keeps (members old before)
      · exact members old before
  | null => exact .null
  | bool b => exact .bool b
  | integer n => exact .integer n
  | real finite => exact .real finite
  | string s => exact .string s
  | array items => exact .array items

end SpringLayout.Json
