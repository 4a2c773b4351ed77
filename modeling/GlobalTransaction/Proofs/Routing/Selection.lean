import GlobalTransaction.Proofs.Routing.Occupancy
import GlobalTransaction.Routing.Router
import Mathlib.Data.List.FinRange
import Mathlib.Order.Bounds.Defs

/-!
# Which node a key gets

What a ring selects is described without the ring. A key goes to the first position at or after
its hash where some node has a replica, and from there to the last node of the list that has one.
Nodes are known by their places in the list, so that equal nodes are told apart.

## Main definitions

* `IsSuccessor` — the position that a hash leads to
* `IsPlaceOf` — the place of the node that a key belongs to
* `Ring.ofPlaces` — the ring over the places of a list

## Main results

* `Ring.isSuccessor_select` — any ring selects the node at the position that the hash leads to
* `Ring.isPlaceOf_select` — the ring over the places selects the place that the key belongs to
* `selection_by_definition` — rings and routers select the node at that place
-/

set_option autoImplicit false

namespace GlobalTransaction.Routing

variable {α : Type}

/-! ### The position that a hash leads to -/

/-- The position that a hash leads to: the least one at or after the hash or, if all positions are
before it, the least one of all. -/
def IsSuccessor (positions : Set UInt32) (hash position : UInt32) : Prop :=
  IsLeast {p ∈ positions | hash ≤ p} position ∨
    (∀ p ∈ positions, p < hash) ∧ IsLeast positions position

section Successor

variable {positions : Set UInt32} {hash p q : UInt32}

/-- A hash leads to one position only. -/
theorem IsSuccessor.unique (hp : IsSuccessor positions hash p)
    (hq : IsSuccessor positions hash q) : p = q := by
  have hleast : ∀ {s : Set UInt32}, IsLeast s p → IsLeast s q → p = q := fun hp hq =>
    UInt32.le_antisymm (hp.2 hq.1) (hq.2 hp.1)
  rcases hp with hp | ⟨hbefore, hp⟩
  · rcases hq with hq | ⟨hbefore, -⟩
    · exact hleast hp hq
    · exact absurd hp.1.2 (UInt32.not_le.2 (hbefore p hp.1.1))
  · rcases hq with hq | ⟨-, hq⟩
    · exact absurd hq.1.2 (UInt32.not_le.2 (hbefore q hq.1.1))
    · exact hleast hp hq

/-- Among fewer positions, a hash still leads to the same one if that is still there. -/
theorem IsSuccessor.of_subset (h : IsSuccessor positions hash p) {fewer : Set UInt32}
    (hsubset : fewer ⊆ positions) (hp : p ∈ fewer) : IsSuccessor fewer hash p := by
  rcases h with ⟨⟨-, hle⟩, hleast⟩ | ⟨hbefore, -, hleast⟩
  · exact .inl ⟨⟨hp, hle⟩, fun q hq => hleast ⟨hsubset hq.1, hq.2⟩⟩
  · exact .inr ⟨fun q hq => hbefore q (hsubset hq), hp, fun q hq => hleast (hsubset hq)⟩

end Successor

namespace Ring

/-- Of some positions of a ring, one is the least as soon as none of them stands in front of it. -/
theorem isLeast_of_split (ring : Ring α) {before behind : List (UInt32 × α)}
    {found : UInt32 × α} (hsplit : ring.positions = before ++ found :: behind)
    {positions : Set UInt32} (hsubset : positions ⊆ ring.taken) (hfound : found.1 ∈ positions)
    (hbefore : ∀ p ∈ before, p.1 ∉ positions) : IsLeast positions found.1 := by
  refine ⟨hfound, fun q hq => ?_⟩
  obtain ⟨node, hnode⟩ := hsubset hq
  have hmem := ring.mem_positions_iff.2 hnode
  have hascending := ring.ascending
  rw [hsplit, Ascending, List.pairwise_append, List.pairwise_cons] at hascending
  rw [hsplit, List.mem_append, List.mem_cons] at hmem
  rcases hmem with hmem | hmem | hmem
  · exact absurd hq (hbefore _ hmem)
  · exact UInt32.le_of_eq (congrArg Prod.fst hmem).symm
  · exact UInt32.le_of_lt (hascending.2.1.1 _ hmem)

/-- A ring selects the node at the position that the hash of the key leads to. -/
theorem isSuccessor_select (ring : Ring α) (key : String) :
    ∃ position, IsSuccessor ring.taken (ring.hash key) position ∧
      ring.nodeAt? position = some (ring.select key) := by
  rw [select]
  cases hfind : ring.positions.find? fun p => ring.hash key ≤ p.1 with
  | some found =>
    obtain ⟨hle, before, behind, hsplit, hbefore⟩ := List.find?_eq_some_iff_append.1 hfind
    rw [decide_eq_true_eq] at hle
    have hnode : ring.nodeAt? found.1 = some found.2 :=
      ring.mem_positions_iff.1 (List.mem_of_find?_eq_some hfind)
    refine ⟨found.1, .inl ?_, hnode⟩
    refine ring.isLeast_of_split hsplit (fun _ hp => hp.1) ⟨⟨found.2, hnode⟩, hle⟩ ?_
    intro p hp hmem
    simpa [hmem.2] using hbefore p hp
  | none =>
    -- every position is before the hash, so the circle begins again
    have hbefore := List.find?_eq_none.1 hfind
    have hsplit : ring.positions =
        [] ++ ring.positions.head ring.positions_ne_nil :: ring.positions.tail :=
      (List.cons_head_tail ring.positions_ne_nil).symm
    have hnode : ring.nodeAt? (ring.positions.head ring.positions_ne_nil).1 = some ring.first :=
      ring.mem_positions_iff.1 (List.head_mem ring.positions_ne_nil)
    refine ⟨_, .inr ⟨?_, ?_⟩, hnode⟩
    · rintro q ⟨node, hq⟩
      simpa using hbefore _ (ring.mem_positions_iff.2 hq)
    · exact ring.isLeast_of_split hsplit (fun _ hp => hp) ⟨_, hnode⟩ fun p hp => nomatch hp

end Ring

/-! ### Places -/

/-- Of an ascending list, what is found from its end is the greatest member with a property. -/
theorem isGreatest_of_find?_reverse {n : Nat} {places : List (Fin n)} {has : Fin n → Prop}
    [DecidablePred has] (hascending : places.Pairwise (· < ·)) (hall : ∀ place, place ∈ places)
    {place : Fin n} (hfind : places.reverse.find? (fun p => decide (has p)) = some place) :
    IsGreatest {p | has p} place := by
  obtain ⟨hplace, behind, before, hsplit, hbehind⟩ := List.find?_eq_some_iff_append.1 hfind
  refine ⟨of_decide_eq_true hplace, fun p hp => ?_⟩
  have hmem := List.mem_reverse.2 (hall p)
  have hdescending := List.pairwise_reverse.2 hascending
  rw [hsplit, List.pairwise_append, List.pairwise_cons] at hdescending
  rw [hsplit, List.mem_append, List.mem_cons] at hmem
  rcases hmem with hmem | rfl | hmem
  · have hnot := hbehind p hmem
    simp only [Bool.not_eq_true', decide_eq_false_iff_not] at hnot
    exact absurd hp hnot
  · exact Fin.le_refl p
  · exact Fin.le_of_lt (hdescending.2.1.1 p hmem)

theorem occupied_map {β : Type} (hash : String → UInt32) (virtualNodes : Nat)
    (identity : β → String) (f : α → β) (nodes : List α) :
    occupied hash virtualNodes identity (nodes.map f) =
      occupied hash virtualNodes (identity ∘ f) nodes := by
  ext position
  simp [occupied]

/-- The key belongs to the node at a place of the list: the last one that has a replica where the
hash of the key leads to. -/
def IsPlaceOf (hash : String → UInt32) (virtualNodes : Nat) (identity : α → String)
    (nodes : List α) (key : String) (place : Fin nodes.length) : Prop :=
  ∃ position, IsSuccessor (occupied hash virtualNodes identity nodes) (hash key) position ∧
    IsGreatest {p : Fin nodes.length | Occupies hash virtualNodes (identity nodes[p]) position}
      place

namespace Ring

/-- The ring over the places of a list, which tells equal nodes apart. -/
def ofPlaces (hash : String → UInt32) (identity : α → String) (virtualNodes : Nat)
    (nodes : List α) : Except Error (Ring (Fin nodes.length)) :=
  ofNodes hash (fun place => identity nodes[place]) virtualNodes (List.finRange nodes.length)

variable {hash : String → UInt32} {identity : α → String} {virtualNodes : Nat} {nodes : List α}

theorem taken_ofPlaces {places : Ring (Fin nodes.length)}
    (hplaces : ofPlaces hash identity virtualNodes nodes = .ok places) :
    places.taken = occupied hash virtualNodes identity nodes := by
  have hmap := occupied_map hash virtualNodes identity nodes.get (List.finRange nodes.length)
  rw [List.map_get_finRange] at hmap
  rw [taken_ofNodes hplaces, hmap]
  rfl

/-- The ring over the places selects the place that the key belongs to. -/
theorem isPlaceOf_select {places : Ring (Fin nodes.length)}
    (hplaces : ofPlaces hash identity virtualNodes nodes = .ok places) (key : String) :
    IsPlaceOf hash virtualNodes identity nodes key (places.select key) := by
  obtain ⟨position, hposition, hnode⟩ := places.isSuccessor_select key
  rw [taken_ofPlaces hplaces, (ofNodes_spec hplaces).1] at hposition
  rw [nodeAt?_ofNodes hplaces] at hnode
  exact ⟨position, hposition, isGreatest_of_find?_reverse (List.pairwise_lt_finRange _)
    List.mem_finRange hnode⟩

/-- The ring over the nodes selects the node at the place that the ring over the places does. -/
theorem select_eq_getElem {ring : Ring α} {places : Ring (Fin nodes.length)}
    (hring : ofNodes hash identity virtualNodes nodes = .ok ring)
    (hplaces : ofPlaces hash identity virtualNodes nodes = .ok places) (key : String) :
    ring.select key = nodes[places.select key] := by
  obtain ⟨p, hp, hnode⟩ := ring.isSuccessor_select key
  obtain ⟨q, hq, hplace⟩ := places.isSuccessor_select key
  rw [taken_ofNodes hring, (ofNodes_spec hring).1] at hp
  rw [taken_ofPlaces hplaces, (ofNodes_spec hplaces).1] at hq
  obtain rfl := hp.unique hq
  rw [nodeAt?_ofNodes hring] at hnode
  rw [nodeAt?_ofNodes hplaces] at hplace
  -- looking for a node is looking for its place
  have hmap := List.find?_map
    (p := fun node => decide (Occupies hash virtualNodes (identity node) p)) (f := nodes.get)
    (l := (List.finRange nodes.length).reverse)
  rw [List.map_reverse, List.map_get_finRange] at hmap
  obtain ⟨place, hfound, hget⟩ := Option.map_eq_some_iff.1 (hmap.symm.trans hnode)
  obtain rfl : place = places.select key := Option.some.inj (hfound.symm.trans hplace)
  exact hget.symm

/-- A ring without replicas is one with a replica of each node. -/
theorem ofNodes_max (hash : String → UInt32) (identity : α → String) (virtualNodes : Nat)
    (nodes : List α) :
    ofNodes hash identity (max virtualNodes 1) nodes =
      ofNodes hash identity virtualNodes nodes := by
  have hplacements : placements hash identity (max virtualNodes 1) nodes =
      placements hash identity virtualNodes nodes := by
    rw [placements, placements, Nat.max_assoc, Nat.max_self]
  simp only [ofNodes, hplacements]

theorem exists_ofNodes (hash : String → UInt32) (identity : α → String) (virtualNodes : Nat)
    {nodes : List α} (hnodes : nodes ≠ []) :
    ∃ ring, ofNodes hash identity virtualNodes nodes = .ok ring := by
  cases hring : ofNodes hash identity virtualNodes nodes with
  | ok ring => exact ⟨ring, rfl⟩
  | error e => exact absurd (ofNodes_eq_error_iff.1 hring) hnodes

theorem exists_ofPlaces (hash : String → UInt32) (identity : α → String) (virtualNodes : Nat)
    {nodes : List α} (hnodes : nodes ≠ []) :
    ∃ places, ofPlaces hash identity virtualNodes nodes = .ok places :=
  exists_ofNodes hash _ virtualNodes (by simpa [List.finRange_eq_nil_iff] using hnodes)

end Ring

/-- Take any hash, any number of replicas and any list of nodes. Only an empty list leaves a key
without a node, in a ring as in a router. Over any other list a ring has one position for each
hash of a replica. It selects for a key the last node of the list that has a replica at the
position to which the hash of the key leads. The ring over the places of the list selects just
that place, and a router with the same hash and the same number of replicas has the same ring and
selects the same node. -/
theorem selection_by_definition (hash : String → UInt32) (identity : α → String)
    (virtualNodes : Nat) (nodes : List α) :
    (Ring.ofNodes hash identity virtualNodes nodes = .error .noAvailableNode ↔ nodes = []) ∧
      let router := (Router.ofConfig hash ⟨virtualNodes⟩).1
      (∀ key, (router.select identity nodes key).1 = .error .noAvailableNode ↔ nodes = []) ∧
      (nodes ≠ [] →
        ∃ ring places,
          Ring.ofNodes hash identity virtualNodes nodes = .ok ring ∧
          router.ring identity nodes = .ok ring ∧
          Ring.ofPlaces hash identity virtualNodes nodes = .ok places ∧
          ring.size = (occupied hash virtualNodes identity nodes).ncard ∧
          ∀ key, ∃ position place,
            IsSuccessor (occupied hash virtualNodes identity nodes) (hash key) position ∧
            IsGreatest {p : Fin nodes.length |
              Occupies hash virtualNodes (identity nodes[p]) position} place ∧
            places.select key = place ∧
            ring.select key = nodes[place] ∧
            (router.select identity nodes key).1 = .ok nodes[place]) := by
  refine ⟨Ring.ofNodes_eq_error_iff, ?_⟩
  intro router
  refine ⟨fun key => Router.select_eq_error_iff, fun hnodes => ?_⟩
  obtain ⟨ring, hring⟩ := Ring.exists_ofNodes hash identity virtualNodes hnodes
  obtain ⟨places, hplaces⟩ := Ring.exists_ofPlaces hash identity virtualNodes hnodes
  have hrouter : router.ring identity nodes = .ok ring :=
    (Ring.ofNodes_max hash identity virtualNodes nodes).trans hring
  refine ⟨ring, places, hring, hrouter, hplaces, ?_, fun key => ?_⟩
  · rw [ring.size_eq_ncard, Ring.taken_ofNodes hring]
  · obtain ⟨position, hposition, hplace⟩ := Ring.isPlaceOf_select hplaces key
    have hselect := Ring.select_eq_getElem hring hplaces key
    refine ⟨position, places.select key, hposition, hplace, rfl, hselect, ?_⟩
    rw [Router.select, hrouter, Router.answer, hselect]

/-- Two nodes meet at one position, and the first node comes once more at the end of the list. A
key with a hash behind all positions goes to the lowest one, which belongs to that last node. -/
theorem selection_where_nodes_meet :
    let hash : String → UInt32 := fun s => s.utf8ByteSize.toUInt32
    let nodes := ["a", "bb", "cc", "a"]
    nodes ≠ [] ∧
      ((Ring.ofPlaces hash id 0 nodes).map fun places =>
        (places.size, places.select "xyz", places.select "far away")) = .ok (2, 2, 3) ∧
      ∃ position, IsSuccessor (occupied hash 0 id nodes) (hash "far away") position ∧
        IsGreatest {p : Fin nodes.length | Occupies hash 0 nodes[p] position} 3 := by
  intro hash nodes
  have hnodes : nodes ≠ [] := by decide
  have hselect : ((Ring.ofPlaces hash id 0 nodes).map fun places =>
      (places.size, places.select "xyz", places.select "far away")) = .ok (2, 2, 3) := rfl
  obtain ⟨-, -, hrings⟩ := selection_by_definition hash id 0 nodes
  obtain ⟨ring, places, -, -, hplaces, -, hkeys⟩ := hrings hnodes
  obtain ⟨position, place, hposition, hplace, hchosen, -⟩ := hkeys "far away"
  refine ⟨hnodes, hselect, position, hposition, ?_⟩
  -- the place that the theorem speaks of is the one that was computed
  rw [hplaces] at hselect
  have hthree : places.select "far away" = 3 := congrArg (fun r => r.2.2) (Except.ok.inj hselect)
  rw [← hthree, hchosen]
  exact hplace

end GlobalTransaction.Routing
