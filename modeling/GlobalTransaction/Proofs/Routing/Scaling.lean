import GlobalTransaction.Proofs.Routing.Selection
import Mathlib.Order.Hom.Basic

/-!
# Nodes that come and go

When nodes come, at whatever places of the list, a key either goes to one of them or stays where it
was. The first position at or after its hash can only come nearer, and if an old node is the last
one that has a replica there, then the position was occupied before, and was the first one then
too. Read the other way round, when nodes go only their keys move.

## Main results

* `IsPlaceOf.unique` — a key belongs to one place only
* `IsPlaceOf.of_insertion` — a key that belongs to an old node belonged to it before
* `key_stays_or_goes_to_new` — the same of what rings select
-/

set_option autoImplicit false

namespace GlobalTransaction.Routing

variable {α : Type} {hash : String → UInt32} {virtualNodes : Nat} {identity : α → String}

/-- A key belongs to one place only. -/
theorem IsPlaceOf.unique {nodes : List α} {key : String} {place other : Fin nodes.length}
    (h : IsPlaceOf hash virtualNodes identity nodes key place)
    (hother : IsPlaceOf hash virtualNodes identity nodes key other) : place = other := by
  obtain ⟨p, hp, hplace⟩ := h
  obtain ⟨q, hq, hother⟩ := hother
  obtain rfl := hp.unique hq
  exact hplace.unique hother

section Insertion

variable {before after : List α} {kept : Fin before.length ↪o Fin after.length}

/-- Where nodes had replicas before, they still have. -/
theorem occupied_subset_of_insertion (hkept : ∀ place, after.get (kept place) = before.get place) :
    occupied hash virtualNodes identity before ⊆ occupied hash virtualNodes identity after := by
  rintro position ⟨node, hnode, hoccupies⟩
  obtain ⟨place, rfl⟩ := List.mem_iff_get.1 hnode
  refine ⟨after.get (kept place), List.get_mem _ _, ?_⟩
  rw [hkept]
  exact hoccupies

/-- A key that belongs to an old node when others have come belonged to it before. -/
theorem IsPlaceOf.of_insertion (hkept : ∀ place, after.get (kept place) = before.get place)
    {key : String} {place : Fin before.length}
    (h : IsPlaceOf hash virtualNodes identity after key (kept place)) :
    IsPlaceOf hash virtualNodes identity before key place := by
  obtain ⟨position, hposition, hplace, hgreatest⟩ := h
  -- the old node has a replica there, so the position is not a new one
  have hoccupies : Occupies hash virtualNodes (identity (before.get place)) position := by
    rw [← hkept]
    exact hplace
  refine ⟨position, hposition.of_subset (occupied_subset_of_insertion hkept)
    ⟨before.get place, List.get_mem _ _, hoccupies⟩, hoccupies, fun other hother => ?_⟩
  have hle : kept other ≤ kept place := by
    apply hgreatest
    change Occupies hash virtualNodes (identity (after.get (kept other))) position
    rw [hkept]
    exact hother
  exact kept.le_iff_le.1 hle

end Insertion

/-- Let nodes come at any places of a list that is not empty, whatever their identities, and
whichever hashes collide. The rings over the places of the two lists tell which nodes the rings
over the nodes select. A key for which no new place is selected is still at its old node: the
selected place is the one to which the old one has moved, and the selected node is the same. -/
theorem key_stays_or_goes_to_new (hash : String → UInt32) (identity : α → String)
    (virtualNodes : Nat) {before after : List α} (hbefore : before ≠ [])
    (kept : Fin before.length ↪o Fin after.length)
    (hkept : ∀ place, after.get (kept place) = before.get place) :
    ∃ oldPlaces newPlaces oldRing newRing,
      Ring.ofPlaces hash identity virtualNodes before = .ok oldPlaces ∧
      Ring.ofPlaces hash identity virtualNodes after = .ok newPlaces ∧
      Ring.ofNodes hash identity virtualNodes before = .ok oldRing ∧
      Ring.ofNodes hash identity virtualNodes after = .ok newRing ∧
      ∀ key,
        oldRing.select key = before.get (oldPlaces.select key) ∧
        newRing.select key = after.get (newPlaces.select key) ∧
        (newPlaces.select key ∈ Set.range kept →
          newPlaces.select key = kept (oldPlaces.select key) ∧
            newRing.select key = oldRing.select key) := by
  have hafter : after ≠ [] := by
    rintro rfl
    exact (kept ⟨0, List.length_pos_iff.2 hbefore⟩).elim0
  obtain ⟨oldPlaces, hold⟩ := Ring.exists_ofPlaces hash identity virtualNodes hbefore
  obtain ⟨newPlaces, hnew⟩ := Ring.exists_ofPlaces hash identity virtualNodes hafter
  obtain ⟨oldRing, holdRing⟩ := Ring.exists_ofNodes hash identity virtualNodes hbefore
  obtain ⟨newRing, hnewRing⟩ := Ring.exists_ofNodes hash identity virtualNodes hafter
  refine ⟨oldPlaces, newPlaces, oldRing, newRing, hold, hnew, holdRing, hnewRing, fun key => ?_⟩
  have holdNode : oldRing.select key = before.get (oldPlaces.select key) :=
    Ring.select_eq_getElem holdRing hold key
  have hnewNode : newRing.select key = after.get (newPlaces.select key) :=
    Ring.select_eq_getElem hnewRing hnew key
  refine ⟨holdNode, hnewNode, ?_⟩
  rintro ⟨place, hplace⟩
  have hnewPlace := Ring.isPlaceOf_select hnew key
  rw [← hplace] at hnewPlace
  have hsame : place = oldPlaces.select key :=
    (hnewPlace.of_insertion hkept).unique (Ring.isPlaceOf_select hold key)
  have hstays : newPlaces.select key = kept (oldPlaces.select key) := by rw [← hplace, hsame]
  refine ⟨hstays, ?_⟩
  rw [hnewNode, hstays, hkept, holdNode]

/-- Two nodes come, in front of the old ones and between them. The one in front has the identity of
an old node, so their replicas meet. A key with a hash behind all positions stays at the old node,
as that is the last one at the lowest position. -/
theorem key_stays_among_colliding_nodes :
    let hash : String → UInt32 := fun s => s.utf8ByteSize.toUInt32
    let before := ["aa", "b"]
    let after := ["b", "aa", "xxxx", "b"]
    let kept : Fin before.length ↪o Fin after.length :=
      OrderEmbedding.ofStrictMono (fun place : Fin 2 => (⟨2 * place + 1, by omega⟩ : Fin 4))
        fun i j hlt => by
          change 2 * i.1 + 1 < 2 * j.1 + 1
          omega
    before ≠ [] ∧ (∀ place, after.get (kept place) = before.get place) ∧
      (Ring.ofPlaces hash id 1 after).map (fun places => (places.select "far away").1) = .ok 3 ∧
      ∃ oldPlaces, Ring.ofPlaces hash id 1 before = .ok oldPlaces ∧
        oldPlaces.select "far away" = 1 := by
  intro hash before after kept
  have hbefore : before ≠ [] := by decide
  have hkept : ∀ place, after.get (kept place) = before.get place := by decide
  have hselect :
      (Ring.ofPlaces hash id 1 after).map (fun places => (places.select "far away").1) = .ok 3 :=
    rfl
  obtain ⟨oldPlaces, newPlaces, oldRing, newRing, hold, hnew, -, -, hstays⟩ :=
    key_stays_or_goes_to_new hash id 1 hbefore kept hkept
  refine ⟨hbefore, hkept, hselect, oldPlaces, hold, ?_⟩
  rw [hnew] at hselect
  have hplace : newPlaces.select "far away" = kept 1 := Fin.ext (Except.ok.inj hselect)
  have hsame := ((hstays "far away").2.2 ⟨1, hplace.symm⟩).1
  exact kept.injective (hsame.symm.trans hplace)

end GlobalTransaction.Routing
