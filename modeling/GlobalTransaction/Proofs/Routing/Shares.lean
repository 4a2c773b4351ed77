import GlobalTransaction.Proofs.Routing.Occupancy
import GlobalTransaction.Proofs.Routing.Selection
import GlobalTransaction.Proofs.Text.Digits
import Mathlib.Data.List.Perm.Subperm

/-!
# How many positions a node gets

Every replica of a node is to have a position of its own. A hash that tells all texts apart is not
enough for that. The number of a replica stands behind the identity of its node without a mark
between them, so the eleventh replica of `"a"` and the first one of `"a1"` are both hashed as
`"a10"`. This happens exactly if an identity goes on with a numeral where another one ends, and
that numeral with one more digit is still the number of a replica. Ten replicas or fewer are never
enough for it.

## Main definitions

* `replicaNames` — the texts that are hashed to place nodes
* `Continues` — an identity goes on with a numeral where another one ends
* `Ring.share` — the number of positions of the nodes with some identity

## Main results

* `nodup_replicaNames_iff` — no text is hashed twice exactly if no identity continues another
* `perm_placeAll`, `length_placeAll_eq_iff` — placements at different positions are all kept
* `full_iff_none_continues` — when every node gets all its positions
* `continued_identity_loses_position` — it does not always
-/

set_option autoImplicit false

namespace GlobalTransaction.Routing

variable {α : Type}

/-! ### Names of replicas -/

/-- The texts that are hashed to place nodes with these identities. -/
def replicaNames (virtualNodes : Nat) (names : List String) : List String :=
  names.flatMap fun name => (List.range (max virtualNodes 1)).map (replicaName name)

/-- An identity is another one followed by a numeral, and ten times the number behind is the number
of a replica. -/
def Continues (virtualNodes : Nat) (name other : String) : Prop :=
  ∃ n, 0 < n ∧ 10 * n < max virtualNodes 1 ∧ other = replicaName name n

theorem toList_replicaName (name : String) (replica : Nat) :
    (replicaName name replica).toList = name.toList ++ Text.decimal replica := by
  rw [replicaName, String.toList_append, String.toList_ofList]

theorem replicaName_injective (name : String) : Function.Injective (replicaName name) := by
  intro i j h
  have hlists := congrArg String.toList h
  rw [toList_replicaName, toList_replicaName] at hlists
  exact Text.decimal_injective (List.append_cancel_left hlists)

theorem replicaName_ne_self (name : String) (replica : Nat) : replicaName name replica ≠ name := by
  intro h
  have hlists := congrArg String.toList h
  rw [toList_replicaName, List.append_right_eq_self] at hlists
  exact Text.decimal_ne_nil replica hlists

/-- The replica with ten times the number has the name of the first replica of the identity that
the number leads to. -/
theorem replicaName_replicaName_zero (name : String) {n : Nat} (h : 0 < n) :
    replicaName (replicaName name n) 0 = replicaName name (10 * n) := by
  apply String.toList_injective
  rw [toList_replicaName, toList_replicaName, toList_replicaName, List.append_assoc,
    Text.decimal_append_decimal h (by decide), Nat.add_zero]

variable {virtualNodes : Nat} {name other : String}

/-- There are more than ten replicas where an identity continues another. -/
theorem Continues.ten_lt (h : Continues virtualNodes name other) : 10 < virtualNodes := by
  obtain ⟨n, hn, hlt, -⟩ := h
  omega

theorem Continues.ne (h : Continues virtualNodes name other) : name ≠ other := by
  obtain ⟨n, -, -, rfl⟩ := h
  exact (replicaName_ne_self name n).symm

/-- If a longer identity has a replica that is named like one of a shorter identity, it continues
that one: what it has in front of its own number is a numeral cut short. -/
theorem continues_of_append {rest : List Char} {i j : Nat} (hi : i < max virtualNodes 1)
    (hne : name ≠ other) (hother : other.toList = name.toList ++ rest)
    (hnumeral : Text.decimal i = rest ++ Text.decimal j) : Continues virtualNodes name other := by
  have hrest : rest ≠ [] := by
    rintro rfl
    rw [List.append_nil] at hother
    exact hne (String.toList_injective hother).symm
  have hdigits : 0 < (Text.decimal j).length := List.length_pos_iff.2 (Text.decimal_ne_nil j)
  have hcut : rest = Text.decimal (i / 10 ^ (Text.decimal j).length) :=
    Text.eq_decimal_of_append hnumeral hrest
  refine ⟨i / 10 ^ (Text.decimal j).length, ?_, ?_, ?_⟩
  · -- the numeral is longer than what is cut off
    refine Nat.div_pos (Nat.le_of_not_lt fun hlt => ?_) (by positivity)
    have hlength := (Text.length_decimal_le_iff hdigits).2 hlt
    rw [hnumeral, List.length_append] at hlength
    have := List.length_pos_iff.2 hrest
    omega
  · have hten : 10 ^ 1 ≤ 10 ^ (Text.decimal j).length := Nat.pow_le_pow_right (by decide) hdigits
    have hquotient : 10 ^ (Text.decimal j).length * (i / 10 ^ (Text.decimal j).length) ≤ i :=
      Nat.mul_div_le i _
    have := Nat.mul_le_mul_right (i / 10 ^ (Text.decimal j).length) hten
    omega
  · apply String.toList_injective
    rw [hother, toList_replicaName, ← hcut]

/-- Two identities have a name of a replica in common exactly if one of them continues the other. -/
theorem exists_replicaName_eq_iff (hne : name ≠ other) :
    (∃ i < max virtualNodes 1, ∃ j < max virtualNodes 1, replicaName name i = replicaName other j) ↔
      Continues virtualNodes name other ∨ Continues virtualNodes other name := by
  constructor
  · rintro ⟨i, hi, j, hj, heq⟩
    have hlists := congrArg String.toList heq
    rw [toList_replicaName, toList_replicaName, List.append_eq_append_iff] at hlists
    rcases hlists with ⟨rest, hother, hnumeral⟩ | ⟨rest, hname, hnumeral⟩
    · exact .inl (continues_of_append hi hne hother hnumeral)
    · exact .inr (continues_of_append hj hne.symm hname hnumeral)
  · rintro (⟨n, hn, hlt, rfl⟩ | ⟨n, hn, hlt, rfl⟩)
    · exact ⟨10 * n, hlt, 0, by omega, (replicaName_replicaName_zero name hn).symm⟩
    · exact ⟨0, by omega, 10 * n, hlt, replicaName_replicaName_zero other hn⟩

/-- Of different identities, no two replicas have the same name exactly if none continues
another. -/
theorem nodup_replicaNames_iff {names : List String} (hdistinct : names.Nodup) :
    (replicaNames virtualNodes names).Nodup ↔
      ∀ name ∈ names, ∀ other ∈ names, ¬Continues virtualNodes name other := by
  have hown : ∀ name ∈ names,
      ((List.range (max virtualNodes 1)).map (replicaName name)).Nodup :=
    fun name _ => List.nodup_range.map (replicaName_injective name)
  have hdisjoint : ∀ name other, List.Disjoint
      ((List.range (max virtualNodes 1)).map (replicaName name))
      ((List.range (max virtualNodes 1)).map (replicaName other)) ↔
      ¬∃ i < max virtualNodes 1, ∃ j < max virtualNodes 1,
        replicaName name i = replicaName other j := by
    intro name other
    simp only [List.disjoint_left, List.mem_map, List.mem_range]
    constructor
    · rintro h ⟨i, hi, j, hj, heq⟩
      exact h ⟨i, hi, rfl⟩ ⟨j, hj, heq.symm⟩
    · rintro h _ ⟨i, hi, rfl⟩ ⟨j, hj, heq⟩
      exact h ⟨i, hi, j, hj, heq.symm⟩
  rw [replicaNames, List.nodup_flatMap]
  constructor
  · rintro ⟨-, hpairs⟩ name hname other hother hcontinues
    have hsymm : Std.Symm (Function.onFun List.Disjoint fun name =>
        (List.range (max virtualNodes 1)).map (replicaName name)) := ⟨fun _ _ h => h.symm⟩
    have hapart := hpairs.forall hname hother hcontinues.ne
    exact (hdisjoint name other).1 hapart
      ((exists_replicaName_eq_iff hcontinues.ne).2 (.inl hcontinues))
  · intro hnone
    refine ⟨hown, hdistinct.imp_of_mem fun {name other} hname hother hne => ?_⟩
    refine (hdisjoint name other).2 fun hshared => ?_
    rcases (exists_replicaName_eq_iff hne).1 hshared with h | h
    · exact hnone name hname other hother h
    · exact hnone other hother name hname h

/-! ### Placements that are kept -/

theorem mem_keys_placeAll_iff {placements : List (UInt32 × α)} {position : UInt32} :
    position ∈ Table.keys (placeAll placements) ↔ position ∈ Table.keys placements := by
  have hlookup := lookup_placeAll placements position
  rw [← not_iff_not, ← Table.lookup_eq_none_iff, hlookup, Table.lookup_eq_none_iff, Table.keys,
    Table.keys, List.map_reverse, List.mem_reverse]

theorem nodup_keys_placeAll (placements : List (UInt32 × α)) :
    (Table.keys (placeAll placements)).Nodup :=
  nodup_keys_of_ascending (ascending_placeAll placements)

/-- Placements at different positions are all kept. -/
theorem perm_placeAll {placements : List (UInt32 × α)} (h : (Table.keys placements).Nodup) :
    (placeAll placements).Perm placements := by
  refine Table.perm_of_lookup_eq (nodup_keys_placeAll placements) h fun position => ?_
  rw [lookup_placeAll, ← Table.lookup_eq_of_perm (List.reverse_perm placements).symm h]

/-- There are as many positions as placements exactly if no position is taken twice. -/
theorem length_placeAll_eq_iff {placements : List (UInt32 × α)} :
    (placeAll placements).length = placements.length ↔ (Table.keys placements).Nodup := by
  constructor
  · intro hlength
    have hsub : (Table.keys (placeAll placements)).Subperm (Table.keys placements) :=
      (nodup_keys_placeAll placements).subperm fun _ => mem_keys_placeAll_iff.1
    have hperm := hsub.perm_of_length_le (by simp [Table.keys, hlength])
    exact hperm.nodup_iff.1 (nodup_keys_placeAll placements)
  · intro h
    exact (perm_placeAll h).length_eq

variable {hash : String → UInt32} {identity : α → String} {nodes : List α}

/-- The positions are the hashes of the names of replicas. -/
theorem keys_placements :
    Table.keys (placements hash identity virtualNodes nodes) =
      (replicaNames virtualNodes (nodes.map identity)).map hash := by
  simp only [Table.keys, placements, replicaNames, List.map_flatMap, List.flatMap_map, List.map_map]
  rfl

theorem length_placements :
    (placements hash identity virtualNodes nodes).length = nodes.length * max virtualNodes 1 := by
  simp [placements, List.length_flatMap]

/-- Each node has a placement for every replica. -/
theorem countP_placements (name : String) :
    (placements hash identity virtualNodes nodes).countP (fun p => decide (identity p.2 = name)) =
      (nodes.map identity).count name * max virtualNodes 1 := by
  induction nodes with
  | nil => simp [placements]
  | cons node nodes ih =>
    -- the placements of one node all count, or none of them does
    have hnode : ((List.range (max virtualNodes 1)).map fun replica =>
        (hash (replicaName (identity node) replica), node)).countP
          (fun p => decide (identity p.2 = name)) =
        if identity node = name then max virtualNodes 1 else 0 := by
      rw [List.countP_map]
      change List.countP (fun _ => decide (identity node = name)) _ = _
      by_cases hname : identity node = name <;> simp [hname]
    rw [placements, List.flatMap_cons, List.countP_append, ← placements, ih, hnode, List.map_cons,
      List.count_cons, Nat.add_mul, Nat.add_comm]
    by_cases hname : identity node = name <;> simp [hname]

/-! ### Full rings -/

/-- The number of positions that belong to nodes with some identity. -/
def Ring.share (identity : α → String) (ring : Ring α) (name : String) : Nat :=
  ring.positions.countP fun p => decide (identity p.2 = name)

/-- Let the nodes of a list have different identities, and let the hash tell the texts apart under
which their replicas are hashed. Then there is a ring over the list. It has as many positions as
there are replicas, and each node has as many as it has replicas, exactly if no identity continues
another. -/
theorem full_iff_none_continues (hash : String → UInt32) (identity : α → String)
    (virtualNodes : Nat) {nodes : List α} (hnodes : nodes ≠ [])
    (hdistinct : (nodes.map identity).Nodup)
    (hhash : ∀ text ∈ replicaNames virtualNodes (nodes.map identity),
      ∀ other ∈ replicaNames virtualNodes (nodes.map identity),
        hash text = hash other → text = other) :
    ∃ ring, Ring.ofNodes hash identity virtualNodes nodes = .ok ring ∧
      (ring.size = nodes.length * max virtualNodes 1 ∧
          (∀ node ∈ nodes, ring.share identity (identity node) = max virtualNodes 1) ↔
        ∀ name ∈ nodes.map identity, ∀ other ∈ nodes.map identity,
          ¬Continues virtualNodes name other) := by
  obtain ⟨ring, hring⟩ := Ring.exists_ofNodes hash identity virtualNodes hnodes
  have hpositions := (Ring.ofNodes_spec hring).2
  -- positions are as different as the texts that are hashed
  have hkeys : (Table.keys (placements hash identity virtualNodes nodes)).Nodup ↔
      (replicaNames virtualNodes (nodes.map identity)).Nodup := by
    rw [keys_placements]
    exact ⟨.of_map hash, .map_on hhash⟩
  rw [nodup_replicaNames_iff hdistinct] at hkeys
  have hlength : (placements hash identity virtualNodes nodes).length =
      nodes.length * max virtualNodes 1 := length_placements
  refine ⟨ring, hring, ?_⟩
  rw [← hkeys, Ring.size, hpositions, ← hlength, length_placeAll_eq_iff]
  refine and_iff_left_of_imp fun hnodup node hnode => ?_
  have hone : (nodes.map identity).count (identity node) = 1 :=
    List.count_eq_one_of_mem hdistinct (List.mem_map_of_mem hnode)
  rw [Ring.share, hpositions, (perm_placeAll hnodup).countP_eq, countP_placements, hone,
    Nat.one_mul]

/-- The hash that reads a text as a numeral. -/
def numericHash (text : String) : UInt32 := UInt32.ofNat (Text.ofDecimal text.toList)

/-- With ten replicas each, no text is hashed twice, although one identity goes on with a numeral
where the other ends. -/
theorem full_with_ten_replicas :
    let nodes := ["1", "11"]
    (nodes ≠ [] ∧ (nodes.map id).Nodup ∧
      ∀ text ∈ replicaNames 10 (nodes.map id), ∀ other ∈ replicaNames 10 (nodes.map id),
        numericHash text = numericHash other → text = other) ∧
    ∃ ring, Ring.ofNodes numericHash id 10 nodes = .ok ring ∧ ring.size = 20 ∧
      ring.share id "1" = 10 ∧ ring.share id "11" = 10 := by
  intro nodes
  have hnodes : nodes ≠ [] := by decide
  have hdistinct : (nodes.map id).Nodup := by decide
  have hhash : ∀ text ∈ replicaNames 10 (nodes.map id), ∀ other ∈ replicaNames 10 (nodes.map id),
      numericHash text = numericHash other → text = other := by decide +kernel
  obtain ⟨ring, hring, hfull⟩ := full_iff_none_continues numericHash id 10 hnodes hdistinct hhash
  obtain ⟨hsize, hshare⟩ := hfull.2 fun _ _ _ _ h => absurd h.ten_lt (by decide)
  exact ⟨⟨hnodes, hdistinct, hhash⟩, ring, hring, hsize, hshare "1" (by decide),
    hshare "11" (by decide)⟩

/-- With eleven replicas each, the last one of `"1"` has the name of the first one of `"11"`. It
loses its position, although the hash tells all texts apart. -/
theorem continued_identity_loses_position :
    let nodes := ["1", "11"]
    nodes ≠ [] ∧ (nodes.map id).Nodup ∧
      (∀ text ∈ replicaNames 11 (nodes.map id), ∀ other ∈ replicaNames 11 (nodes.map id),
        numericHash text = numericHash other → text = other) ∧
      ∃ ring, Ring.ofNodes numericHash id 11 nodes = .ok ring ∧
        ring.size ≠ nodes.length * max 11 1 ∧ ring.size = 21 ∧
        ring.share id "1" = 10 ∧ ring.share id "11" = 11 := by
  intro nodes
  refine ⟨by decide, by decide, by decide +kernel, _, rfl, ?_, ?_, ?_, ?_⟩
  all_goals decide +kernel

end GlobalTransaction.Routing
