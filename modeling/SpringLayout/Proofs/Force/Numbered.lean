import SpringLayout.Proofs.Force.Gather

/-!
Forces on plain arrays.

`Push.all` and `Push.total` name vertices by the members of `Fin n`, so no vertex can be missing. A
`Tally` finds forces on plain arrays, where vertices are numbers: every number is looked up, and one
past the end of an array ends it all. Main statement: a tally over links is never ended so, and
comes to the same forces and as many guarded pushes (`Tally.scatter?_toArray`).
-/

namespace SpringLayout

/-- The forces found so far, and how many pushes had their distance guarded. -/
structure Tally (α : Type) where
  /-- For each vertex, the force on it. -/
  forces : Array (Vec α)
  guarded : Nat

namespace Tally

variable {α : Type} [PolarScalar α]

/-! ### Looking vertices up -/

/-- The separation from vertex `j` to vertex `i`. -/
def separation? (minDistance : α) (positions : Array (Vec α)) (i j : Nat) :
    Option (Separation α) := do
  let p ← positions[i]?
  let q ← positions[j]?
  return Separation.between minDistance i j p q

/-- A force on vertex `i`, and its negative on vertex `j`. -/
def push? (i j : Nat) (force : Vec α) (guarded : Bool) (t : Tally α) : Option (Tally α) := do
  let atFirst ← t.forces[i]?
  let forces := t.forces.setIfInBounds i (atFirst + force)
  let atSecond ← forces[j]?
  return ⟨forces.setIfInBounds j (atSecond - force), t.guarded + guarded.toNat⟩

/-- The push of an edge. -/
def spring? (c : Config α) (positions : Array (Vec α)) (e : Edge) (t : Tally α) :
    Option (Tally α) := do
  let s ← separation? c.minDistance positions e.tail.index e.head.index
  let strength := c.springStiffness * (s.distance - c.restLength)
  t.push? e.head.index e.tail.index (s.delta * (strength / s.distance)) s.guarded

/-- The push of vertex `j` on vertex `i`. -/
def repulsion? (c : Config α) (positions : Array (Vec α)) (i j : Nat) (t : Tally α) :
    Option (Tally α) := do
  let s ← separation? c.minDistance positions i j
  let d := s.distance
  t.push? i j (s.delta * (c.repulsion / (d * d * d * d))) s.guarded

/-- All pushes: edges in their order, without those from a vertex to itself, then every two
vertices, the smaller first. -/
def scatter? (c : Config α) (positions : Array (Vec α)) (edges : List Edge) :
    Option (Tally α) := do
  let n := positions.size
  let springs ← edges.foldlM
    (fun t e => if e.IsLoop then some t else t.spring? c positions e)
    ⟨Array.replicate n Vec.zero, 0⟩
  (List.range n).foldlM
    (fun t i => (List.range' (i + 1) (n - (i + 1))).foldlM
      (fun t j => t.repulsion? c positions i j) t)
    springs

/-! ### Every vertex is found -/

variable {n : Nat}

/-- The tally of some pushes. -/
def ofPushes (pushes : List (Push α n)) : Tally α :=
  ⟨(Push.total pushes).toArray, pushes.countP fun p => p.guarded⟩

theorem push?_ofPushes (pushes : List (Push α n)) (p : Push α n) :
    (ofPushes pushes).push? p.first p.second p.force p.guarded =
      some (ofPushes (pushes ++ [p])) := by
  have total : Push.total (pushes ++ [p]) = Push.deposit (Push.total pushes) p :=
    List.foldl_concat _ _ _ _
  have guarded : (pushes ++ [p]).countP (fun p => p.guarded) =
      pushes.countP (fun p => p.guarded) + p.guarded.toNat := by
    rw [List.countP_append, List.countP_singleton]
    cases p.guarded <;> rfl
  rw [ofPushes, ofPushes, guarded, total, push?, Push.deposit]
  simp [Array.setIfInBounds_def]
  rfl

theorem separation?_toArray (minDistance : α) (positions : Vector (Vec α) n) (i j : Fin n) :
    separation? minDistance positions.toArray i j =
      some (Separation.between minDistance i j (positions.get i) (positions.get j)) := by
  simp [separation?, Vector.get]

theorem spring?_ofPushes (c : Config α) (positions : Vector (Vec α) n) (l : Link n)
    (pushes : List (Push α n)) :
    (ofPushes pushes).spring? c positions.toArray l.edge =
      some (ofPushes (pushes ++ [Push.spring c positions l])) := by
  rw [← push?_ofPushes, spring?, Link.edge, separation?_toArray]
  rfl

theorem repulsion?_ofPushes (c : Config α) (positions : Vector (Vec α) n) (i j : Fin n)
    (pushes : List (Push α n)) :
    (ofPushes pushes).repulsion? c positions.toArray i j =
      some (ofPushes (pushes ++ [Push.repulsion c positions i j])) := by
  rw [← push?_ofPushes, repulsion?, separation?_toArray]
  rfl

/-- A loop whose rounds each add some pushes adds them all. -/
theorem foldlM_ofPushes {β : Type} (round : Tally α → β → Option (Tally α))
    (added : β → List (Push α n)) (items : List β) (pushes : List (Push α n))
    (adds : ∀ (before : List (Push α n)), ∀ x ∈ items,
      round (ofPushes before) x = some (ofPushes (before ++ added x))) :
    items.foldlM round (ofPushes pushes) = some (ofPushes (pushes ++ items.flatMap added)) := by
  induction items generalizing pushes with
  | nil => simp
  | cons x rest ih =>
      rw [List.foldlM_cons, adds pushes x List.mem_cons_self, List.flatMap_cons,
        ← List.append_assoc]
      exact ih _ fun before y mem => adds before y (List.mem_cons_of_mem _ mem)

/-- The vertices after vertex `i` are the numbers from `i + 1` on. -/
theorem map_val_above (i : Fin n) :
    (above i).map Fin.val = List.range' (i + 1) (n - (i + 1)) := by
  apply List.Pairwise.eq_of_mem_iff (r := (· < ·))
  · exact ((List.pairwise_lt_finRange n).filter _).map _ fun _ _ less => less
  · exact List.pairwise_lt_range'
  · intro k
    rw [List.mem_range'_1, List.mem_map]
    constructor
    · rintro ⟨j, mem, rfl⟩
      have after : i.val < j.val := mem_above.mp mem
      omega
    · rintro ⟨after, inside⟩
      have bound : k < n := by omega
      exact ⟨⟨k, bound⟩, mem_above.mpr (Fin.lt_def.mpr after), rfl⟩

theorem isLoop_edge_iff (l : Link n) : l.edge.IsLoop ↔ l.head = l.tail := by
  simp [Link.edge, Edge.IsLoop, Fin.ext_iff]

theorem foldlM_springs (c : Config α) (positions : Vector (Vec α) n) (links : List (Link n)) :
    (links.map Link.edge).foldlM
        (fun t e => if e.IsLoop then some t else t.spring? c positions.toArray e)
        ⟨Array.replicate n Vec.zero, 0⟩ =
      some (ofPushes ((links.filter fun l => decide (l.head ≠ l.tail)).map
        (Push.spring c positions))) := by
  have kept : (links.filter fun l => decide (l.head ≠ l.tail)).map (Push.spring c positions) =
      links.flatMap fun l => if l.head = l.tail then [] else [Push.spring c positions l] := by
    induction links with
    | nil => rfl
    | cons l rest ih =>
        rw [List.flatMap_cons, ← ih]
        by_cases loop : l.head = l.tail
        · simp [loop]
        · simp [loop]
  rw [List.foldlM_map, kept]
  refine foldlM_ofPushes _ _ _ [] fun before l _ => ?_
  by_cases loop : l.head = l.tail
  · rw [if_pos ((isLoop_edge_iff l).mpr loop), if_pos loop, List.append_nil]
  · rw [if_neg (mt (isLoop_edge_iff l).mp loop), if_neg loop]
    exact spring?_ofPushes c positions l before

theorem foldlM_row (c : Config α) (positions : Vector (Vec α) n) (pushes : List (Push α n))
    (i : Fin n) :
    (List.range' (i + 1) (n - (i + 1))).foldlM
        (fun t j => t.repulsion? c positions.toArray i j) (ofPushes pushes) =
      some (ofPushes (pushes ++ (above i).map fun j => Push.repulsion c positions i j)) := by
  rw [← map_val_above, List.foldlM_map, List.map_eq_flatMap]
  exact foldlM_ofPushes _ _ _ _ fun before j _ => repulsion?_ofPushes c positions i j before

theorem foldlM_rows (c : Config α) (positions : Vector (Vec α) n) (pushes : List (Push α n)) :
    (List.range n).foldlM
        (fun t i => (List.range' (i + 1) (n - (i + 1))).foldlM
          (fun t j => t.repulsion? c positions.toArray i j) t)
        (ofPushes pushes) =
      some (ofPushes (pushes ++
        (pairsBelow n).map fun (i, j) => Push.repulsion c positions i j)) := by
  have rows : (pairsBelow n).map (fun (i, j) => Push.repulsion c positions i j) =
      (List.finRange n).flatMap fun i => (above i).map fun j => Push.repulsion c positions i j := by
    simp [pairsBelow_eq_flatMap, List.map_flatMap, Function.comp_def]
  rw [rows, ← List.map_coe_finRange_eq_range, List.foldlM_map]
  exact foldlM_ofPushes _ _ _ _ fun before i _ => foldlM_row c positions before i

/-- Between vertices that are all there, a tally comes to the forces of the pushes in their
order. -/
theorem scatter?_toArray (c : Config α) (positions : Vector (Vec α) n) (links : List (Link n)) :
    scatter? c positions.toArray (links.map Link.edge) =
      some (ofPushes (Push.all c positions links)) := by
  rw [scatter?, Vector.size_toArray, foldlM_springs]
  exact foldlM_rows c positions _

end Tally

end SpringLayout
