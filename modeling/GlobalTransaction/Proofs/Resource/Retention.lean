import GlobalTransaction.Proofs.Resource.Accesses
import Mathlib.Data.Finset.Card

/-!
# How long a status is kept

A cache loses a status only when the branch is left alone for the idle time, or when as many other
branches are accessed meanwhile as there may be entries. For the entries in front of an entry are
about branches that were accessed after it. As long as there are not enough of these branches to
fill the cache, the entry has a place.

## Main definitions

* `touched` — the branches that are accessed in a history
* `HeldIn` — an entry stands behind entries about some branches only

## Main results

* `HeldIn.others`, `HeldIn.take`, `HeldIn.cons` — what the parts of a command do to an entry
* `Clocked.Retentive.step` — every command keeps what stands
* `Clocked.status_retained` — a reader who comes in time finds the status
-/

set_option autoImplicit false

namespace GlobalTransaction.Resource.StatusCache

/-- The branches that are accessed in a history. -/
def touched (events : List Timed) : Finset String :=
  (events.filterMap fun e => e.command.accessed?).toFinset

theorem touched_append_of_accesses {events : List Timed} {x : Timed} {id : String}
    (h : x.command.accessed? = some id) :
    touched (events ++ [x]) = insert id (touched events) := by
  rw [touched, List.filterMap_append, List.toFinset_append, Finset.union_comm,
    List.filterMap_cons_some (f := fun e : Timed => e.command.accessed?) h]
  rfl

theorem touched_append_of_none {events : List Timed} {x : Timed}
    (h : x.command.accessed? = none) : touched (events ++ [x]) = touched events := by
  rw [touched, List.filterMap_append,
    List.filterMap_cons_none (f := fun e : Timed => e.command.accessed?) h, List.filterMap_nil,
    List.append_nil]
  rfl

theorem touched_subset_append (events later : List Timed) :
    touched events ⊆ touched (events ++ later) := by
  rw [touched, touched, List.filterMap_append, List.toFinset_append]
  exact Finset.subset_union_left

/-- An access comes within the idle time behind another one, and fewer branches are accessed between
them than there may be entries. -/
def Close (capacity idle : Nat) (e : Timed) (between : List Timed) (later : Timed) : Prop :=
  later.time < e.time + idle ∧ (touched between).card < capacity

/-! ### Entries in their places -/

/-- An entry stands in a list. All entries in front of it are about some branches. -/
def HeldIn (entries : List Entry) (e : Entry) (newer : Finset String) : Prop :=
  ∃ front rest, entries = front ++ e :: rest ∧ ∀ other ∈ front, other.id ∈ newer

section HeldIn

variable {cache : StatusCache} {entries : List Entry} {e : Entry} {newer : Finset String}

theorem heldIn_cons_self (e : Entry) (rest : List Entry) : HeldIn (e :: rest) e ∅ :=
  ⟨[], rest, rfl, fun _ hother => nomatch hother⟩

theorem HeldIn.mem (h : HeldIn entries e newer) : e ∈ entries := by
  obtain ⟨front, rest, rfl, -⟩ := h
  simp

theorem HeldIn.mono (h : HeldIn entries e newer) {larger : Finset String} (hsub : newer ⊆ larger) :
    HeldIn entries e larger := by
  obtain ⟨front, rest, hentries, hfront⟩ := h
  exact ⟨front, rest, hentries, fun other hother => hsub (hfront other hother)⟩

theorem HeldIn.filter (h : HeldIn entries e newer) {p : Entry → Bool} (hp : p e = true) :
    HeldIn (entries.filter p) e newer := by
  obtain ⟨front, rest, rfl, hfront⟩ := h
  refine ⟨front.filter p, rest.filter p, ?_, fun other hother => ?_⟩
  · rw [List.filter_append, List.filter_cons_of_pos hp]
  · exact hfront other (List.mem_filter.1 hother).1

/-- When the entry about another branch goes, the branch is not in front any more. -/
theorem HeldIn.others (h : HeldIn cache.entries e newer) {id : String} (hne : e.id ≠ id) :
    HeldIn (cache.others id) e (newer.erase id) := by
  obtain ⟨front, rest, hentries, hfront⟩ := h
  refine ⟨front.filter fun e => !(e.id == id), rest.filter fun e => !(e.id == id), ?_, ?_⟩
  · rw [StatusCache.others, hentries, List.filter_append,
      List.filter_cons_of_pos (by simpa using hne)]
  · intro other hother
    obtain ⟨hmem, hother⟩ := List.mem_filter.1 hother
    exact Finset.mem_erase.2 ⟨by simpa using hother, hfront other hmem⟩

theorem HeldIn.cons (h : HeldIn entries e newer) (first : Entry) :
    HeldIn (first :: entries) e (insert first.id newer) := by
  obtain ⟨front, rest, rfl, hfront⟩ := h
  refine ⟨first :: front, rest, rfl, List.forall_mem_cons.2 ⟨Finset.mem_insert_self _ _, ?_⟩⟩
  exact fun other hother => Finset.mem_insert_of_mem (hfront other hother)

/-- Entries that are about different branches have no more of them in front than there are such
branches, so the entry has a place among the first of them if there are more places. -/
theorem HeldIn.take (h : HeldIn entries e newer) (hnodup : (entries.map Entry.id).Nodup)
    {count : Nat} (hcount : newer.card < count) : HeldIn (entries.take count) e newer := by
  obtain ⟨front, rest, rfl, hfront⟩ := h
  rw [List.map_append] at hnodup
  have hlength : front.length ≤ newer.card := by
    rw [← List.length_map Entry.id, ← List.toFinset_card_of_nodup hnodup.of_append_left]
    refine Finset.card_le_card fun id hid => ?_
    obtain ⟨other, hother, rfl⟩ := List.mem_map.1 (List.mem_toFinset.1 hid)
    exact hfront other hother
  obtain ⟨more, rfl⟩ : ∃ more, count = front.length + (more + 1) :=
    ⟨count - front.length - 1, by omega⟩
  refine ⟨front, rest.take more, ?_, hfront⟩
  rw [List.take_length_add_append, List.take_succ_cons]

end HeldIn

namespace Clocked

variable {s : Clocked} {past : List Timed} {e : Entry} {newer : Finset String}

/-- A status of another branch takes the first place. The entry keeps a place if there are enough
of them. -/
theorem heldIn_put (hranked : s.Ranked) (h : HeldIn s.cache.entries e newer) {id : String}
    (hne : e.id ≠ id) (status : Branch.Status)
    (hplace : (insert id newer).card < s.cache.capacity) :
    HeldIn (s.cache.put s.now id status).entries e (insert id newer) := by
  have hcard : (newer.erase id).card + 1 = (insert id newer).card := by
    rw [← Finset.erase_insert_eq_erase]
    exact Finset.card_erase_add_one (Finset.mem_insert_self id newer)
  have hnodup : ((s.cache.others id).map Entry.id).Nodup :=
    (List.filter_sublist.map Entry.id).nodup hranked.nodup
  have hkept := (h.others hne).take hnodup (by omega : _ < s.cache.capacity - 1)
  exact (hkept.cons ⟨id, status, s.now⟩).mono
    (Finset.insert_subset_insert id (Finset.erase_subset id newer))

/-- A reader of another branch may bring it to the front. -/
theorem heldIn_get (hranked : s.Ranked) (h : HeldIn s.cache.entries e newer) {id : String}
    (hne : e.id ≠ id) : HeldIn (s.cache.get s.now id).state.entries e (insert id newer) := by
  have hothers : HeldIn (s.cache.others id) e newer :=
    (h.others hne).mono (Finset.erase_subset id newer)
  rcases hranked.get_cases id with ⟨found, -, hid, hget⟩ | ⟨-, hget⟩
  · rw [hget, ← hid]
    rw [← hid] at hothers
    exact hothers.cons { found with lastAccess := s.now }
  · rw [hget]
    exact hothers.mono (Finset.subset_insert id newer)

/-- A command that is not for the branch of an entry leaves the entry in the cache, if it does not
take too long and there are enough places. -/
theorem heldIn_step (hranked : s.Ranked) {since : List Timed}
    (h : HeldIn s.cache.entries e (touched since)) {command : Command}
    (haccesses : command.accessed? ≠ some e.id) (hchanges : command.changed? ≠ some e.id)
    (hlive : (s.step command).state.now < e.lastAccess + s.cache.idle)
    (hplace : (touched (since ++ [⟨s.now, command⟩])).card < s.cache.capacity) :
    HeldIn (s.step command).state.cache.entries e (touched (since ++ [⟨s.now, command⟩])) := by
  cases command with
  | put id status =>
    rw [touched_append_of_accesses rfl] at hplace ⊢
    exact heldIn_put hranked h (fun hid => hchanges (congrArg some hid.symm)) status hplace
  | get id =>
    rw [touched_append_of_accesses rfl]
    exact heldIn_get hranked h (fun hid => haccesses (congrArg some hid.symm))
  | invalidate id =>
    rw [touched_append_of_none rfl]
    exact (h.others fun hid => hchanges (congrArg some hid.symm)).mono
      (Finset.erase_subset id (touched since))
  | purge =>
    rw [touched_append_of_none rfl]
    exact h.filter ((hranked.isLive_eq h.mem).trans (decide_eq_true hlive))
  | wait milliseconds =>
    rw [touched_append_of_none rfl]
    exact h

/-! ### Statuses that stand -/

/-- A status that stands is in the cache, behind entries about the branches that were accessed
since then only, until it is left alone for the idle time or these branches fill the cache. -/
def Retentive (past : List Timed) (s : Clocked) : Prop :=
  ∀ id status last since,
    Stands (Close s.cache.capacity s.cache.idle) past id status last since →
      s.now < last.time + s.cache.idle → (touched since).card < s.cache.capacity →
        HeldIn s.cache.entries ⟨id, status, last.time⟩ (touched since)

/-- A reader who comes in time finds the status that stands. -/
theorem Retentive.get_eq (h : s.Retentive past) (hranked : s.Ranked) {id : String}
    {status : Branch.Status} {last : Timed} {since : List Timed}
    (hstands : Stands (Close s.cache.capacity s.cache.idle) past id status last since)
    (hlive : s.now < last.time + s.cache.idle) (hplace : (touched since).card < s.cache.capacity) :
    s.cache.get s.now id =
      ⟨{ s.cache with entries := ⟨id, status, s.now⟩ :: s.cache.others id }, some status,
        [.counted .cacheHit]⟩ := by
  have hmem := (h id status last since hstands hlive hplace).mem
  exact hranked.get_of_mem_live (hranked.mem_live_iff.2 ⟨hmem, hlive⟩)

theorem now_le_now_step (s : Clocked) (command : Command) : s.now ≤ (s.step command).state.now := by
  cases command with
  | wait milliseconds => exact Nat.le_add_right s.now milliseconds
  | put | get | invalidate | purge => exact Nat.le_refl s.now

/-- Every command keeps what stands in the cache. -/
theorem Retentive.step (h : s.Retentive past) (hranked : s.Ranked) (command : Command) :
    (s.step command).state.Retentive (past ++ [⟨s.now, command⟩]) := by
  obtain ⟨hcapacity, hidle⟩ := settings_step s command
  intro id status last since
  rw [hcapacity, hidle]
  intro hstands hlive hplace
  rcases stands_append_iff.1 hstands with ⟨hwrite, rfl, rfl⟩ |
    ⟨hread, rfl, rfl, before, between, hbefore, hclose⟩ |
    ⟨haccesses, hchanges, before, rfl, hbefore⟩
  · obtain rfl : command = .put id status := hwrite
    exact heldIn_cons_self _ _
  · obtain rfl : command = .get id := hread
    rw [Clocked.step, h.get_eq hranked hbefore hclose.1 hclose.2]
    exact heldIn_cons_self _ _
  · have hnow := now_le_now_step s command
    have hcard := Finset.card_le_card (touched_subset_append before [⟨s.now, command⟩])
    have hheld := h id status last before hbefore (by omega) (by omega)
    exact heldIn_step hranked hheld (of_decide_eq_false haccesses) (of_decide_eq_false hchanges)
      hlive hplace

/-- A new cache keeps what stands. -/
theorem retentive_run {capacity : Nat} (hpos : 0 < capacity) (idle now : Nat)
    (commands : List Command) :
    let start : Clocked := ⟨.empty capacity idle hpos, now⟩
    (run start commands).state.Retentive (start.history commands) := by
  refine history_induction (P := fun past s => s.Retentive past) ?_
    (fun _ _ command hranked h => h.step hranked command) commands
  rintro id status last since ⟨time, after, hnone, -⟩
  exact absurd hnone not_last_nil

/-- Take a new cache, with room for any number of entries and with any idle time, and use it in any
way. Let the latest command that has changed something about a branch have written a status. If
from that command on to a reader of the branch any two accesses to it that follow each other are
less than the idle time apart, with accesses to fewer other branches between them than there may be
entries, then the reader finds the status. -/
theorem status_retained {capacity : Nat} (hpos : 0 < capacity) (idle now : Nat)
    (commands : List Command) {id : String} {status : Branch.Status} {time : Nat}
    {after : List Timed} :
    let start : Clocked := ⟨.empty capacity idle hpos, now⟩
    let s := (run start commands).state
    Last (Timed.changes id) (start.history commands) ⟨time, .put id status⟩ after →
      (∀ e between later,
        Consecutive (Timed.accesses id)
          (⟨time, .put id status⟩ :: after ++ [⟨s.now, .get id⟩]) e between later →
          later.time < e.time + idle ∧ (touched between).card < capacity) →
        (s.step (.get id)).answer = .found (some status) := by
  intro start s hchange hgaps
  have hranked : s.Ranked := ranked_run hpos idle now commands
  have hretentive : s.Retentive (start.history commands) := retentive_run hpos idle now commands
  obtain ⟨hcapacity, hidle⟩ : s.cache.capacity = capacity ∧ s.cache.idle = idle :=
    settings_run start commands
  obtain ⟨last, since, hstands, hlive, hplace⟩ :=
    (exists_consecutive_iff (decide_eq_true rfl)).1 ⟨time, after, hchange, hgaps⟩
  rw [← hcapacity, ← hidle] at hstands
  rw [← hidle] at hlive
  rw [← hcapacity] at hplace
  rw [Clocked.step, hretentive.get_eq hranked hstands hlive hplace]

/-- The cache has two places and is purged. A branch loses the first place to another one twice, and
both times it is read one millisecond before it would be too late. -/
theorem status_retained_in_last_place :
    let start : Clocked := ⟨.empty 2 10 (by decide), 0⟩
    let commands : List Command :=
      [.put "a" .registered, .put "b" .phaseOneDone, .wait 9, .get "a", .put "c" .registered,
        .wait 9, .purge]
    let s := (run start commands).state
    let after : List Timed :=
      [⟨0, .put "b" .phaseOneDone⟩, ⟨0, .wait 9⟩, ⟨9, .get "a"⟩, ⟨9, .put "c" .registered⟩,
        ⟨9, .wait 9⟩, ⟨18, .purge⟩]
    0 < 2 ∧ Last (Timed.changes "a") (start.history commands) ⟨0, .put "a" .registered⟩ after ∧
      (∀ e between later,
        Consecutive (Timed.accesses "a")
          (⟨0, .put "a" .registered⟩ :: after ++ [⟨s.now, .get "a"⟩]) e between later →
          later.time < e.time + 10 ∧ (touched between).card < 2) ∧
      (s.step (.get "a")).answer = .found (some .registered) := by
  intro start commands s after
  have hchange : Last (Timed.changes "a") (start.history commands) ⟨0, .put "a" .registered⟩
      after := ⟨List.suffix_refl _, by decide, by decide⟩
  have hgaps : ∀ e between later,
      Consecutive (Timed.accesses "a")
        (⟨0, .put "a" .registered⟩ :: after ++ [⟨s.now, .get "a"⟩]) e between later →
        later.time < e.time + 10 ∧ (touched between).card < 2 := by
    intro e between later h
    -- the commands are added one by one, and there are three accesses among them
    change Consecutive (Timed.accesses "a")
      ([⟨0, .put "a" .registered⟩] ++ [⟨0, .put "b" .phaseOneDone⟩] ++ [⟨0, .wait 9⟩] ++
        [⟨9, .get "a"⟩] ++ [⟨9, .put "c" .registered⟩] ++ [⟨9, .wait 9⟩] ++ [⟨18, .purge⟩] ++
        [⟨18, .get "a"⟩]) e between later at h
    simp only [consecutive_append_iff, not_consecutive_singleton, last_append_iff,
      last_singleton_iff, Timed.accesses, Command.accessed?, Option.some.injEq, String.reduceEq,
      reduceCtorEq, decide_true, decide_false, true_and, false_and, false_or, or_false] at h
    rcases h with ⟨rfl, _, rfl, _, rfl, rfl, rfl⟩ | ⟨rfl, _, rfl, _, rfl, _, rfl, rfl, rfl⟩ <;>
      decide
  exact ⟨by decide, hchange, hgaps, status_retained (by decide) 10 0 commands hchange hgaps⟩

-- two other branches fill the cache
example :
    (run ⟨.empty 2 10 (by decide), 0⟩
      [.put "a" .registered, .put "b" .phaseOneDone, .get "c", .put "c" .registered,
        .get "a"]).answer = [.done, .done, .found none, .done, .found none] := by
  decide

end Clocked

end GlobalTransaction.Resource.StatusCache
