import GlobalTransaction.Proofs.Routing.Selection

/-!
# Lists that name the same nodes

Clients can see the nodes of a cluster in different orders, and some nodes more than once. The
positions of a ring do not depend on that, but at a position where replicas of two identities meet
the order decides who gets it. If there is no such position, all clients route alike.

## Main definitions

* `Meet` — two identities have replicas at the same position

## Main results

* `occupied_eq_of_identities` — the occupied positions depend on the identities alone
* `Ring.select_of_last` — where identities meet, a key goes to the last node of the list
* `routes_agree` — lists with the same identities route alike if no two of them meet
-/

set_option autoImplicit false

namespace GlobalTransaction.Routing

variable {α : Type} {hash : String → UInt32} {virtualNodes : Nat} {identity : α → String}

/-- Two identities have replicas at the same position. -/
def Meet (hash : String → UInt32) (virtualNodes : Nat) (name other : String) : Prop :=
  ∃ position, Occupies hash virtualNodes name position ∧ Occupies hash virtualNodes other position

theorem meet_iff {name other : String} :
    Meet hash virtualNodes name other ↔
      ∃ replica < max virtualNodes 1,
        Occupies hash virtualNodes other (hash (replicaName name replica)) := by
  constructor
  · rintro ⟨_, ⟨replica, hlt, rfl⟩, hother⟩
    exact ⟨replica, hlt, hother⟩
  · rintro ⟨replica, hlt, hother⟩
    exact ⟨_, ⟨replica, hlt, rfl⟩, hother⟩

instance (hash : String → UInt32) (virtualNodes : Nat) (name other : String) :
    Decidable (Meet hash virtualNodes name other) :=
  decidable_of_iff' _ meet_iff

theorem mem_occupied_iff {nodes : List α} {position : UInt32} :
    position ∈ occupied hash virtualNodes identity nodes ↔
      ∃ name ∈ nodes.map identity, Occupies hash virtualNodes name position := by
  rw [occupied, Set.mem_ofPred_eq]
  constructor
  · rintro ⟨node, hnode, hoccupies⟩
    exact ⟨identity node, List.mem_map_of_mem hnode, hoccupies⟩
  · rintro ⟨name, hname, hoccupies⟩
    obtain ⟨node, hnode, rfl⟩ := List.mem_map.1 hname
    exact ⟨node, hnode, hoccupies⟩

/-- The occupied positions depend on the identities alone, whatever their order and however often
they come. -/
theorem occupied_eq_of_identities {first second : List α}
    (hsame : ∀ name, name ∈ first.map identity ↔ name ∈ second.map identity) :
    occupied hash virtualNodes identity first = occupied hash virtualNodes identity second := by
  ext position
  simp only [mem_occupied_iff, hsame]

namespace Ring

/-- A ring selects a node of the list that has a replica where the hash of the key leads to. -/
theorem occupies_select {nodes : List α} {ring : Ring α}
    (hring : ofNodes hash identity virtualNodes nodes = .ok ring) (key : String) :
    ring.select key ∈ nodes ∧
      ∃ position, IsSuccessor (occupied hash virtualNodes identity nodes) (hash key) position ∧
        Occupies hash virtualNodes (identity (ring.select key)) position := by
  obtain ⟨position, hposition, hnode⟩ := ring.isSuccessor_select key
  rw [taken_ofNodes hring, (ofNodes_spec hring).1] at hposition
  rw [nodeAt?_ofNodes hring] at hnode
  have hmem := List.mem_reverse.1 (List.mem_of_find?_eq_some hnode)
  have hoccupies := List.find?_some hnode
  exact ⟨hmem, position, hposition, of_decide_eq_true hoccupies⟩

/-- The last node of a list gets every key that leads to a position where it has a replica. So a
position where identities meet goes to one of them or to another, as the list is ordered. -/
theorem select_of_last {nodes : List α} {node : α} {ring : Ring α}
    (hring : ofNodes hash identity virtualNodes (nodes ++ [node]) = .ok ring) {key : String}
    {position : UInt32}
    (hposition : IsSuccessor (occupied hash virtualNodes identity (nodes ++ [node])) (hash key)
      position)
    (hoccupies : Occupies hash virtualNodes (identity node) position) :
    ring.select key = node := by
  obtain ⟨reached, hreached, hnode⟩ := ring.isSuccessor_select key
  rw [taken_ofNodes hring, (ofNodes_spec hring).1] at hreached
  obtain rfl := hreached.unique hposition
  -- a position belongs to the last node that has a replica there
  rw [nodeAt?_ofNodes hring, List.reverse_append, List.reverse_singleton, List.singleton_append,
    List.find?_cons_of_pos (by simpa using hoccupies)] at hnode
  exact (Option.some.inj hnode).symm

/-- Let the identities of two lists be the same, and no two of them meet. Then the rings over the
two lists select nodes of one identity. -/
theorem identity_select_eq {first second : List α} {ring other : Ring α}
    (hring : ofNodes hash identity virtualNodes first = .ok ring)
    (hother : ofNodes hash identity virtualNodes second = .ok other)
    (hsame : ∀ name, name ∈ first.map identity ↔ name ∈ second.map identity)
    (hapart : ∀ name ∈ first.map identity, ∀ other ∈ first.map identity,
      Meet hash virtualNodes name other → name = other)
    (key : String) : identity (ring.select key) = identity (other.select key) := by
  obtain ⟨hmem, p, hp, hoccupies⟩ := occupies_select hring key
  obtain ⟨hmem', q, hq, hoccupies'⟩ := occupies_select hother key
  -- both lists occupy the same positions, so the hash of the key leads to the same one
  rw [← occupied_eq_of_identities hsame] at hq
  obtain rfl := hp.unique hq
  have hname := List.mem_map_of_mem (f := identity) hmem
  have hname' := (hsame _).2 (List.mem_map_of_mem hmem')
  exact hapart _ hname _ hname' ⟨p, hoccupies, hoccupies'⟩

end Ring

/-- A router selects what the ring with its hash and its number of replicas does. -/
theorem Router.select_ofConfig {nodes : List α} {ring : Ring α}
    (hring : Ring.ofNodes hash identity virtualNodes nodes = .ok ring) (key : String) :
    ((Router.ofConfig hash ⟨virtualNodes⟩).1.select identity nodes key).1 =
      .ok (ring.select key) := by
  have hrouter : (Router.ofConfig hash ⟨virtualNodes⟩).1.ring identity nodes = .ok ring :=
    (Ring.ofNodes_max hash identity virtualNodes nodes).trans hring
  rw [Router.select, hrouter, Router.answer]

/-- Two clients see lists with the same identities, in whatever order and however often each comes,
and replicas of different identities meet nowhere. Then, whichever hash and number of replicas they
use, their rings have the same number of positions, and each key goes to nodes of one identity, by
the rings as by routers. -/
theorem routes_agree (hash : String → UInt32) (identity : α → String) (virtualNodes : Nat)
    {first second : List α} (hfirst : first ≠ [])
    (hsame : ∀ name, name ∈ first.map identity ↔ name ∈ second.map identity)
    (hapart : ∀ name ∈ first.map identity, ∀ other ∈ first.map identity,
      Meet hash virtualNodes name other → name = other) :
    ∃ ring other,
      Ring.ofNodes hash identity virtualNodes first = .ok ring ∧
      Ring.ofNodes hash identity virtualNodes second = .ok other ∧
      ring.size = other.size ∧
      let router := (Router.ofConfig hash ⟨virtualNodes⟩).1
      ∀ key, identity (ring.select key) = identity (other.select key) ∧
        (router.select identity first key).1 = .ok (ring.select key) ∧
        (router.select identity second key).1 = .ok (other.select key) := by
  have hsecond : second ≠ [] := by
    rintro rfl
    obtain ⟨node, hnode⟩ := List.exists_mem_of_ne_nil first hfirst
    exact absurd ((hsame _).1 (List.mem_map_of_mem hnode)) List.not_mem_nil
  obtain ⟨ring, hring⟩ := Ring.exists_ofNodes hash identity virtualNodes hfirst
  obtain ⟨other, hother⟩ := Ring.exists_ofNodes hash identity virtualNodes hsecond
  refine ⟨ring, other, hring, hother, ?_, ?_⟩
  · rw [ring.size_eq_ncard, other.size_eq_ncard, Ring.taken_ofNodes hring,
      Ring.taken_ofNodes hother, occupied_eq_of_identities hsame]
  · intro router key
    exact ⟨Ring.identity_select_eq hring hother hsame hapart key,
      Router.select_ofConfig hring key, Router.select_ofConfig hother key⟩

/-- The second list has the nodes of the first in another order, and one of them twice. All replicas
of a node meet at one position, but those of different nodes do not. -/
theorem routes_agree_on_reordered_list :
    let hash : String → UInt32 := fun s => s.utf8ByteSize.toUInt32
    let first := ["a", "bbb", "ccccc"]
    let second := ["ccccc", "a", "bbb", "a"]
    (first ≠ [] ∧ (∀ name, name ∈ first.map id ↔ name ∈ second.map id) ∧
      ∀ name ∈ first.map id, ∀ other ∈ first.map id, Meet hash 2 name other → name = other) ∧
    ∃ ring other, Ring.ofNodes hash id 2 first = .ok ring ∧
      Ring.ofNodes hash id 2 second = .ok other ∧ ring.size = other.size ∧
      ∀ key, ring.select key = other.select key := by
  intro hash first second
  have hfirst : first ≠ [] := by decide
  have hsame : ∀ name, name ∈ first.map id ↔ name ∈ second.map id := by
    intro name
    simp only [first, second, List.map_id, List.mem_cons, List.not_mem_nil, or_false]
    tauto
  have hapart : ∀ name ∈ first.map id, ∀ other ∈ first.map id,
      Meet hash 2 name other → name = other := by decide
  obtain ⟨ring, other, hring, hother, hsize, hkeys⟩ :=
    routes_agree hash id 2 hfirst hsame hapart
  exact ⟨⟨hfirst, hsame, hapart⟩, ring, other, hring, hother, hsize, fun key => (hkeys key).1⟩

end GlobalTransaction.Routing
