import GlobalTransaction.Routing.Ring
import Mathlib.Data.List.Induction
import Mathlib.Data.Set.Card

/-!
# Who has a position

The positions of a ring are taken one after the other, and each goes over to whoever takes it
next. In the end the positions are those where a node has a replica, and each belongs to the last
such node of the list, however often and by whichever nodes it was taken before.

## Main definitions

* `Occupies` — a node of some identity has a replica at a position
* `occupied` — the positions where some node has a replica
* `Ring.taken` — the positions of a ring

## Main results

* `lookup_placeAll` — the last placement at a position counts
* `Ring.nodeAt?_ofNodes` — a position belongs to the last node that has a replica there
* `Ring.taken_ofNodes`, `Ring.size_eq_ncard` — the positions of a ring, and their number
-/

set_option autoImplicit false

namespace GlobalTransaction.Routing

variable {α : Type}

/-- A node of some identity has a replica at a position. -/
def Occupies (hash : String → UInt32) (virtualNodes : Nat) (identity : String)
    (position : UInt32) : Prop :=
  ∃ replica < max virtualNodes 1, hash (replicaName identity replica) = position

instance (hash : String → UInt32) (virtualNodes : Nat) (identity : String) (position : UInt32) :
    Decidable (Occupies hash virtualNodes identity position) :=
  inferInstanceAs (Decidable (∃ replica < max virtualNodes 1, _))

/-- The positions where some node has a replica. -/
def occupied (hash : String → UInt32) (virtualNodes : Nat) (identity : α → String)
    (nodes : List α) : Set UInt32 :=
  {position | ∃ node ∈ nodes, Occupies hash virtualNodes (identity node) position}

/-! ### The last placement counts -/

/-- What is found at a position is what was placed there last. -/
theorem lookup_placeAll (placements : List (UInt32 × α)) (position : UInt32) :
    (placeAll placements).lookup position = placements.reverse.lookup position := by
  induction placements using List.reverseRecOn with
  | nil => rfl
  | append_singleton placements last ih =>
    rw [placeAll_append_singleton, lookup_place, ih, List.reverse_append, List.reverse_singleton,
      List.singleton_append, Table.lookup_cons_eq]

/-- In a table of one node, the node is found at every position. -/
theorem lookup_of_forall_eq {table : Table UInt32 α} {node : α}
    (h : ∀ placement ∈ table, placement.2 = node) (position : UInt32) :
    table.lookup position = if position ∈ table.keys then some node else none := by
  induction table with
  | nil => rfl
  | cons head table ih =>
    obtain ⟨p, other⟩ := head
    obtain ⟨rfl, htable⟩ := List.forall_mem_cons.1 h
    have hmem : position ∈ Table.keys ((p, other) :: table) ↔
        position = p ∨ position ∈ Table.keys table := List.mem_cons
    rw [Table.lookup_cons_eq, ih htable]
    by_cases hp : position = p
    · rw [if_pos hp, if_pos (hmem.2 (.inl hp))]
    · rw [if_neg hp]
      exact if_congr ⟨fun h => hmem.2 (.inr h), fun h => (hmem.1 h).resolve_left hp⟩ rfl rfl

/-- Of several tables, each of one node, the first one with the position counts. -/
theorem lookup_flatMap {table : α → Table UInt32 α} {position : UInt32} {has : α → Prop}
    [DecidablePred has]
    (htable : ∀ node, (table node).lookup position = if has node then some node else none)
    (nodes : List α) :
    (nodes.flatMap table).lookup position = nodes.find? fun node => decide (has node) := by
  induction nodes with
  | nil => rfl
  | cons node nodes ih =>
    rw [List.flatMap_cons, List.lookup_append, htable, ih, List.find?_cons]
    by_cases hhas : has node
    · simp [hhas]
    · simp [hhas]

variable {hash : String → UInt32} {virtualNodes : Nat} {identity : α → String} {nodes : List α}

/-- The last placement at a position is one of the last node that has a replica there. -/
theorem lookup_reverse_placements (position : UInt32) :
    (placements hash identity virtualNodes nodes).reverse.lookup position =
      nodes.reverse.find? fun node =>
        decide (Occupies hash virtualNodes (identity node) position) := by
  rw [placements, List.reverse_flatMap]
  refine lookup_flatMap (fun node => ?_) nodes.reverse
  have hnode : ∀ placement ∈ ((List.range (max virtualNodes 1)).map fun replica =>
      (hash (replicaName (identity node) replica), node)).reverse, placement.2 = node := by
    intro placement hplacement
    obtain ⟨replica, -, rfl⟩ := List.mem_map.1 (List.mem_reverse.1 hplacement)
    rfl
  rw [Function.comp_apply, lookup_of_forall_eq hnode]
  refine if_congr ?_ rfl rfl
  simp only [Table.keys, List.map_reverse, List.map_map, List.mem_reverse, List.mem_map,
    List.mem_range, Function.comp_apply, Occupies]

/-! ### The positions of a ring -/

/-- Positions that go up do not come twice. -/
theorem nodup_keys_of_ascending {table : Table UInt32 α} (h : Ascending table) :
    table.keys.Nodup :=
  List.pairwise_map.2 (h.imp fun hlt => UInt32.ne_of_lt hlt)

namespace Ring

/-- The positions of a ring. -/
def taken (ring : Ring α) : Set UInt32 := {position | ∃ node, ring.nodeAt? position = some node}

theorem nodup_keys (ring : Ring α) : (Table.keys ring.positions).Nodup :=
  nodup_keys_of_ascending ring.ascending

theorem mem_positions_iff (ring : Ring α) {position : UInt32} {node : α} :
    (position, node) ∈ ring.positions ↔ ring.nodeAt? position = some node :=
  Table.mem_iff_lookup_eq_some ring.nodup_keys

theorem mem_taken_iff (ring : Ring α) {position : UInt32} :
    position ∈ ring.taken ↔ position ∈ Table.keys ring.positions := by
  simp only [taken, Table.keys, Set.mem_ofPred_eq, ← mem_positions_iff, List.mem_map, Prod.exists,
    exists_eq_right, exists_and_right]

theorem size_eq_ncard (ring : Ring α) : ring.size = ring.taken.ncard := by
  have htaken : ring.taken = ((Table.keys ring.positions).toFinset : Set UInt32) := by
    ext position
    rw [mem_taken_iff, List.coe_toFinset, Set.mem_ofPred_eq]
  rw [htaken, Set.ncard_coe_finset, List.toFinset_card_of_nodup ring.nodup_keys, Table.keys,
    List.length_map, size]

/-- A ring over nodes keeps the hash, and has the placements of all replicas. -/
theorem ofNodes_spec {ring : Ring α}
    (hring : ofNodes hash identity virtualNodes nodes = .ok ring) :
    ring.hash = hash ∧
      ring.positions = placeAll (placements hash identity virtualNodes nodes) := by
  rw [ofNodes] at hring
  split at hring
  · cases hring
  · obtain rfl := Except.ok.inj hring
    exact ⟨rfl, rfl⟩

/-- A position belongs to the last node of the list that has a replica there. -/
theorem nodeAt?_ofNodes {ring : Ring α}
    (hring : ofNodes hash identity virtualNodes nodes = .ok ring) (position : UInt32) :
    ring.nodeAt? position =
      nodes.reverse.find? fun node =>
        decide (Occupies hash virtualNodes (identity node) position) := by
  rw [nodeAt?, (ofNodes_spec hring).2, lookup_placeAll, lookup_reverse_placements]

/-- The positions of a ring are those where some node has a replica. -/
theorem taken_ofNodes {ring : Ring α}
    (hring : ofNodes hash identity virtualNodes nodes = .ok ring) :
    ring.taken = occupied hash virtualNodes identity nodes := by
  ext position
  rw [taken, Set.mem_ofPred_eq, ← Option.isSome_iff_exists, nodeAt?_ofNodes hring]
  simp [occupied]

end Ring

end GlobalTransaction.Routing
