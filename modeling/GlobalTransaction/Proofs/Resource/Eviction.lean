import GlobalTransaction.Proofs.Resource.Recency
import Mathlib.Data.List.Basic

/-!
# Which entry has to go

The entries of a cache stand in the order of their last accesses. So the entry that makes place for
another one is the one that was left alone for the longest time, and it is past its idle time if
any entry is.

## Main definitions

* `Clocked.Evicts` — an entry makes place for a status that is written

## Main results

* `Clocked.Ranked.evicts_iff` — it is the last entry of a full cache, to which the branch is new
* `Clocked.Ranked.lastAccess_le_of_evicts` — no entry was left alone for a longer time
* `Clocked.order_and_eviction` — the entries behind a run, and which of them goes next
-/

set_option autoImplicit false

namespace GlobalTransaction.Resource.StatusCache.Clocked

variable {s : Clocked} {id : String} {status : Branch.Status} {e : Entry}

/-- An entry is not there any more when a status is written for another branch. -/
structure Evicts (s : Clocked) (id : String) (status : Branch.Status) (e : Entry) : Prop where
  mem : e ∈ s.cache.entries
  id_ne : e.id ≠ id
  find?_eq_none : (s.step (.put id status)).state.cache.find? e.id = none

/-- The entry that goes is the last one. It goes if the cache is full and the branch is new to it,
and only then. -/
theorem Ranked.evicts_iff (h : s.Ranked) :
    s.Evicts id status e ↔
      s.cache.find? id = none ∧ s.cache.size = s.cache.capacity ∧
        s.cache.entries.getLast? = some e := by
  have hentries : (s.step (.put id status)).state.cache.entries = _ := h.entries_put id status
  constructor
  · rintro ⟨hmem, hne, hgone⟩
    rw [find?, List.find?_eq_none, hentries] at hgone
    have hlost : ∀ kept ∈ (if s.cache.find? id = none ∧ s.cache.size = s.cache.capacity then
        s.cache.entries.dropLast else s.cache.others id), kept ≠ e := by
      rintro kept hkept rfl
      exact hgone kept (List.mem_cons_of_mem _ hkept) (beq_self_eq_true kept.id)
    by_cases hfull : s.cache.find? id = none ∧ s.cache.size = s.cache.capacity
    · rw [if_pos hfull] at hlost
      refine ⟨hfull.1, hfull.2, ?_⟩
      by_contra hlast
      exact hlost e (List.mem_dropLast_of_mem_of_ne_getLast? hmem fun heq => hlast heq.symm) rfl
    · rw [if_neg hfull] at hlost
      exact absurd rfl (hlost e (mem_others.2 ⟨hmem, hne⟩))
  · rintro ⟨hnew, hfull, hlast⟩
    obtain ⟨front, hsplit⟩ := List.getLast?_eq_some_iff.1 hlast
    have hmem : e ∈ s.cache.entries := List.mem_of_getLast? hlast
    have hne : e.id ≠ id := by simpa using List.find?_eq_none.1 hnew e hmem
    refine ⟨hmem, hne, ?_⟩
    rw [find?, List.find?_eq_none, hentries, if_pos ⟨hnew, hfull⟩, hsplit, List.dropLast_concat]
    -- the entries in front of the last one are about other branches
    have hnodup := h.nodup
    rw [hsplit, List.map_append, List.nodup_append] at hnodup
    refine List.forall_mem_cons.2 ⟨by simpa using hne.symm, fun kept hkept hid => ?_⟩
    exact hnodup.2.2 kept.id (List.mem_map_of_mem hkept) e.id (by simp) (beq_iff_eq.1 hid)

/-- No entry was left alone for a longer time than the one that goes. -/
theorem Ranked.lastAccess_le_of_evicts (h : s.Ranked) (hgone : s.Evicts id status e)
    {other : Entry} (hother : other ∈ s.cache.entries) : e.lastAccess ≤ other.lastAccess := by
  obtain ⟨front, hsplit⟩ := List.getLast?_eq_some_iff.1 (h.evicts_iff.1 hgone).2.2
  have hdescending := h.descending
  rw [hsplit, List.pairwise_append] at hdescending
  rw [hsplit, List.mem_append, List.mem_singleton] at hother
  rcases hother with hfront | rfl
  · exact hdescending.2.2 other hfront e (List.mem_singleton_self e)
  · exact Nat.le_refl _

/-- Take a new cache, with room for any number of entries and with any idle time, and use it in any
way. It never has more entries than there is room for, nor two about the same branch. They stand in
the order of their last accesses, the latest one first, and none of these is to come. An entry goes
for another branch exactly if the cache is full, the branch is new to it, and the entry is the last
one. Then no entry was left alone for a longer time, and if this one is within its idle time, so
are all the others. -/
theorem order_and_eviction {capacity : Nat} (hpos : 0 < capacity) (idle now : Nat)
    (commands : List Command) :
    let s := (run ⟨.empty capacity idle hpos, now⟩ commands).state
    s.cache.size ≤ capacity ∧
      (s.cache.entries.map Entry.id).Nodup ∧
      s.cache.entries.Pairwise (fun before behind => behind.lastAccess ≤ before.lastAccess) ∧
      (∀ e ∈ s.cache.entries, e.lastAccess ≤ s.now) ∧
      ∀ id status e,
        (s.Evicts id status e ↔
          s.cache.find? id = none ∧ s.cache.size = capacity ∧
            s.cache.entries.getLast? = some e) ∧
        (s.Evicts id status e →
          (∀ other ∈ s.cache.entries, e.lastAccess ≤ other.lastAccess) ∧
            (s.now < e.lastAccess + idle →
              ∀ other ∈ s.cache.entries, s.now < other.lastAccess + idle)) := by
  intro s
  have hs : s.Ranked := ranked_run hpos idle now commands
  have hcapacity : s.cache.capacity = capacity := (settings_run _ commands).1
  refine ⟨hcapacity ▸ hs.size_le, hs.nodup, hs.descending, hs.past, fun id status e => ⟨?_, ?_⟩⟩
  · rw [hs.evicts_iff, hcapacity]
  · intro hgone
    refine ⟨fun other hother => hs.lastAccess_le_of_evicts hgone hother, ?_⟩
    intro hlive other hother
    have hle := hs.lastAccess_le_of_evicts hgone hother
    omega

/-- A branch was written first and read last. The other one is past its idle time and goes. -/
theorem expired_entry_evicted :
    let commands : List Command :=
      [.put "a" .registered, .wait 2, .put "b" .phaseOneDone, .wait 2, .get "a", .wait 9]
    let s := (run ⟨.empty 2 10 (by decide), 0⟩ commands).state
    0 < 2 ∧ s.cache.entries = [⟨"a", .registered, 4⟩, ⟨"b", .phaseOneDone, 2⟩] ∧ s.now = 13 ∧
      s.Evicts "c" .registered ⟨"b", .phaseOneDone, 2⟩ ∧
      ∀ other ∈ s.cache.entries, 2 ≤ other.lastAccess := by
  intro commands s
  obtain ⟨hiff, holdest⟩ := (order_and_eviction (by decide : 0 < 2) 10 0 commands).2.2.2.2
    "c" .registered ⟨"b", .phaseOneDone, 2⟩
  have hgone := hiff.2 ⟨by decide, by decide, by decide⟩
  exact ⟨by decide, by decide, by decide, hgone, (holdest hgone).1⟩

end GlobalTransaction.Resource.StatusCache.Clocked
