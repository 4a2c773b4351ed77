import GlobalTransaction.Proofs.Resource.Calls
import GlobalTransaction.Proofs.Runs
import Mathlib.Algebra.BigOperators.Fin
import Mathlib.Data.Int.Order.Basic

/-!
# The books of keepers

Keepers count the resources that they take, those that they give back, and their refusals. What was
taken and not given back is what all of them keep together, even where flags are changed from
outside and a resource comes to be kept twice: the count goes by keys, not by resources. A request
that only repeats what is kept is not counted.

## Main definitions

* `Depot.size` — the number of resources that all keepers keep together
* `Depot.Balances` — counts that account for a change of that number, and for refusals

## Main results

* `Depot.Keyed.balances_step`, `Depot.Keyed.balances_run` — commands and runs are accounted for
* `Depot.books_balance` — the same from the beginning, and what an effective request leaves alone
-/

set_option autoImplicit false

namespace GlobalTransaction

/-! ### Entries of a table -/

/-- A key that comes once takes one entry with it when it is erased. -/
theorem Table.length_erase_add_one {κ α : Type} [DecidableEq κ] {table : Table κ α}
    (h : table.keys.Nodup) {key : κ} (hmem : key ∈ table.keys) :
    (table.erase key).length + 1 = table.length := by
  have hkeys : (table.erase key).keys = table.keys.erase key := by
    rw [h.erase_eq_filter, keys, keys, erase, List.filter_map]
    refine congrArg (List.map Prod.fst) (List.filter_congr fun entry _ => ?_)
    simp [bne, beq_eq_decide]
  have hlength := congrArg List.length hkeys
  rw [keys, List.length_map, List.length_erase_of_mem hmem, keys, List.length_map] at hlength
  have hpos : 0 < table.length := by
    simpa [keys] using List.length_pos_of_mem hmem
  omega

namespace Resource

variable {R : Type} {n : Nat}

namespace Depot

/-- The number of resources that all keepers keep together. -/
def size (d : Depot R n) : Nat := ∑ k, (d.keeper k).size

theorem size_empty (infos : Vector Info n) (cache : StatusCache) :
    (empty infos cache : Depot R n).size = 0 := by
  simp [size, empty, Depot.keeper, Keeper.size, Keeper.empty]

/-- When one keeper changes, the number changes by what that keeper has more or less. -/
theorem size_withKeeper_add (d : Depot R n) (k : Fin n) (keeper : Keeper R) :
    (d.withKeeper k keeper).size + (d.keeper k).size = d.size + keeper.size := by
  have hbefore := Finset.sum_erase_add Finset.univ (fun other => (d.keeper other).size)
    (Finset.mem_univ k)
  have hbehind := Finset.sum_erase_add Finset.univ
    (fun other => ((d.withKeeper k keeper).keeper other).size) (Finset.mem_univ k)
  have hothers : ∑ other ∈ Finset.univ.erase k, ((d.withKeeper k keeper).keeper other).size =
      ∑ other ∈ Finset.univ.erase k, (d.keeper other).size := by
    apply Finset.sum_congr rfl
    intro other hother
    rw [keeper_withKeeper, if_neg (Finset.ne_of_mem_erase hother)]
  rw [hothers, keeper_withKeeper, if_pos rfl] at hbehind
  rw [size, size]
  omega

/-! ### Counts -/

/-- The counts of a journal account for a change of the number of kept resources, and for a number
of refusals. -/
structure Balances (before behind refusals : Nat) (journal : Journal) : Prop where
  kept_eq : before + journal.total .hold = behind + journal.total .release
  refused_eq : journal.total .keeperFatal = refusals

theorem Balances.append {before between behind refusals more : Nat} {first second : Journal}
    (h : Balances before between refusals first) (hmore : Balances between behind more second) :
    Balances before behind (refusals + more) (first ++ second) where
  kept_eq := by
    have hfirst := h.kept_eq
    have hsecond := hmore.kept_eq
    rw [Journal.total_append, Journal.total_append]
    omega
  refused_eq := by rw [Journal.total_append, h.refused_eq, hmore.refused_eq]

/-- Events that keepers do not report account for no change. -/
theorem balances_of_silent {size : Nat} {journal : Journal} (hhold : journal.total .hold = 0)
    (hrelease : journal.total .release = 0) (hfatal : journal.total .keeperFatal = 0) :
    Balances size size 0 journal :=
  ⟨by rw [hhold, hrelease], hfatal⟩

/-- What the cache reports is nothing that keepers report. -/
theorem total_cache_step (s : StatusCache.Clocked) (command : StatusCache.Command)
    {counter : Counter} (hhit : counter ≠ .cacheHit) (hmiss : counter ≠ .cacheMiss) :
    (s.step command).journal.total counter = 0 := by
  cases command with
  | get id =>
    rw [StatusCache.Clocked.step, StatusCache.get]
    split
    · split <;> simp [Journal.total, hhit.symm, hmiss.symm]
    · simp [Journal.total, hmiss.symm]
  | put | invalidate | purge | wait => rfl

/-- The number of refusals that an answer is. -/
def Answer.refusals (answer : Answer R) : Nat := if answer.isRefusal then 1 else 0

theorem balances_onCache (d : Depot R n) (command : StatusCache.Command) :
    Balances d.size (d.onCache command).state.size (d.onCache command).answer.refusals
      (d.onCache command).journal :=
  balances_of_silent (total_cache_step _ _ nofun nofun) (total_cache_step _ _ nofun nofun)
    (total_cache_step _ _ nofun nofun)

variable [DecidableEq R]

theorem size_setHeld (d : Depot R n) (resource : R) (held : Bool) :
    (d.setHeld resource held).size = d.size := rfl

/-! ### Requests -/

/-- A request to hold is counted where the key gets a resource, and not where it has it already. -/
theorem balances_hold (describe : Depot R n → R → String) (d : Depot R n) (k : Fin n)
    (key : String) (resource : R) :
    Balances d.size (step describe d (.hold k key resource)).state.size
      (step describe d (.hold k key resource)).answer.refusals
      (step describe d (.hold k key resource)).journal := by
  rw [step, Outcome.map]
  by_cases hkept : d.lookup k key = some resource
  · rw [hold_repeated hkept]
    exact ⟨rfl, rfl⟩
  · by_cases hfree : d.lookup k key = none ∧ d.isHeld resource = false
    · rw [hold_free hfree.1 hfree.2]
      refine ⟨?_, rfl⟩
      have hsize := size_withKeeper_add d k ((d.keeper k).insert key resource)
      have hone : ((d.keeper k).insert key resource).size = (d.keeper k).size + 1 := rfl
      have hcounts : Journal.total [.counted .hold, .logged .resourceHeld] .hold = 1 ∧
          Journal.total [.counted .hold, .logged .resourceHeld] .release = 0 := ⟨rfl, rfl⟩
      rw [size_setHeld, hcounts.1, hcounts.2]
      omega
    · have hheld : d.lookup k key = none → d.isHeld resource = true := by
        intro hnone
        rw [← Bool.not_eq_false]
        exact fun hflag => hfree ⟨hnone, hflag⟩
      rw [hold_refused hkept hheld]
      exact ⟨rfl, rfl⟩

/-- A request to release is counted where the key loses its resource. As no key comes twice, the
keeper has then just one less. -/
theorem Keyed.balances_release {d : Depot R n} (h : d.Keyed) (describe : Depot R n → R → String)
    (k : Fin n) (key : String) (resource : R) :
    Balances d.size (Depot.step describe d (.release k key resource)).state.size
      (Depot.step describe d (.release k key resource)).answer.refusals
      (Depot.step describe d (.release k key resource)).journal := by
  rw [Depot.step, Outcome.map]
  by_cases hkept : d.lookup k key = some resource
  · rw [release_kept hkept]
    refine ⟨?_, rfl⟩
    -- erasing takes all entries of the key, so here the keys have to be known to come once
    have hmem : key ∈ (d.keeper k).kept.keys := by
      by_contra hnot
      cases hkept.symm.trans (Table.lookup_eq_none_iff.2 hnot)
    have hsize := size_withKeeper_add d k ((d.keeper k).erase key)
    have hone : ((d.keeper k).erase key).size + 1 = (d.keeper k).size :=
      Table.length_erase_add_one (h k) hmem
    have hcounts : Journal.total [.counted .release, .logged .resourceReleased] .hold = 0 ∧
        Journal.total [.counted .release, .logged .resourceReleased] .release = 1 := ⟨rfl, rfl⟩
    rw [size_setHeld, hcounts.1, hcounts.2]
    omega
  · rw [release_refused hkept]
    exact ⟨rfl, rfl⟩

/-! ### Runs -/

/-- Every command is accounted for. -/
theorem Keyed.balances_step {d : Depot R n} (h : d.Keyed) (describe : Depot R n → R → String)
    (command : Command R n) :
    Balances d.size (Depot.step describe d command).state.size
      (Depot.step describe d command).answer.refusals
      (Depot.step describe d command).journal := by
  cases command with
  | hold k key resource => exact balances_hold describe d k key resource
  | release k key resource => exact h.balances_release describe k key resource
  | lookup k key => exact ⟨rfl, rfl⟩
  | setHeld resource held => exact ⟨rfl, rfl⟩
  | setShouldBeHeld k shouldBeHeld =>
    -- the keeper changes, but not in how much it keeps
    have hsize := size_withKeeper_add d k { d.keeper k with shouldBeHeld }
    refine ⟨?_, rfl⟩
    exact (Nat.add_right_cancel hsize).symm
  | setStatus k id status => exact balances_onCache d _
  | getStatus k id => exact balances_onCache d _
  | clearStatus k id =>
    rw [Depot.step]
    split
    · exact ⟨rfl, rfl⟩
    · exact balances_onCache d _
  | cache command => exact balances_onCache d command

/-- Every run is accounted for. -/
theorem Keyed.balances_run {d : Depot R n} (h : d.Keyed) (describe : Depot R n → R → String)
    (commands : List (Command R n)) :
    Balances d.size (run describe d commands).state.size
      ((run describe d commands).answer.countP Answer.isRefusal)
      (run describe d commands).journal := by
  induction commands generalizing d with
  | nil => exact ⟨rfl, rfl⟩
  | cons command commands ih =>
    have hhere := h.balances_step describe command
    -- each command leaves keys that come once, whatever was done to the flags
    have hrest := ih (h.step describe command)
    have hrefusals : (run describe d (command :: commands)).answer.countP Answer.isRefusal =
        (Depot.step describe d command).answer.refusals +
          (run describe (Depot.step describe d command).state commands).answer.countP
            Answer.isRefusal := by
      rw [run, Outcome.run, List.countP_cons, Nat.add_comm]
      rfl
    rw [hrefusals]
    exact hhere.append hrest

/-- Two depots differ in nothing but what one key has and one flag. -/
structure DiffersAt (d behind : Depot R n) (k : Fin n) (key : String) (resource : R) : Prop where
  lookup_eq : ∀ other otherKey, ¬(other = k ∧ otherKey = key) →
    behind.lookup other otherKey = d.lookup other otherKey
  isHeld_eq : ∀ other, other ≠ resource → behind.isHeld other = d.isHeld other

theorem Carried.differsAt {d behind : Depot R n} {call : Call R n} (h : d.Carried call behind) :
    DiffersAt d behind call.keeper call.key call.resource where
  lookup_eq other otherKey hne := by rw [h.lookup_eq, if_neg hne]
  isHeld_eq other hne := by rw [h.isHeld_eq, if_neg hne]

/-- However keepers that start empty are used, and whatever flags are changed from outside, the
resources that were taken less those that were given back are as many as the keepers keep together,
and there were as many fatal reports as refused requests. A request that is effective changes what
is kept for no other key, and the flag of no other resource. -/
theorem books_balance (describe : Depot R n → R → String) (infos : Vector Info n)
    (cache : StatusCache) (commands : List (Command R n)) :
    let o := run describe (empty infos cache) commands
    (o.journal.total .hold : Int) - o.journal.total .release = ∑ k, ((o.state.keeper k).size : Int) ∧
      o.journal.total .keeperFatal = o.answer.countP Answer.isRefusal ∧
      ∀ k key resource,
        (∀ previous, (o.state.hold describe k key resource).answer = .ok previous →
          DiffersAt o.state (o.state.hold describe k key resource).state k key resource) ∧
        (∀ released, (o.state.release describe k key resource).answer = .ok released →
          DiffersAt o.state (o.state.release describe k key resource).state k key resource) := by
  intro o
  have hbalances := (keyed_empty infos cache).balances_run describe commands
  refine ⟨?_, hbalances.refused_eq, fun k key resource => ⟨?_, ?_⟩⟩
  · have hkept := hbalances.kept_eq
    rw [size_empty, Nat.zero_add] at hkept
    rw [hkept, Nat.cast_add, add_sub_cancel_right, size, Nat.cast_sum]
  · intro previous hok
    rcases hold_cases describe o.state k key resource with ⟨_, -, -, hcarried⟩ | ⟨⟨_, herror⟩, -⟩
    · exact hcarried.differsAt
    · exact nomatch hok.symm.trans herror
  · intro released hok
    rcases release_cases describe o.state k key resource with ⟨_, -, -, hcarried⟩ | ⟨⟨_, herror⟩, -⟩
    · exact hcarried.differsAt
    · exact nomatch hok.symm.trans herror

end Depot

end Resource

end GlobalTransaction
