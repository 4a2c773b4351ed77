import GlobalTransaction.Resource.StatusCache
import Mathlib.Data.List.Nodup

/-!
# The order of cached statuses

The entries of a cache stand in the order of their last accesses, so those past their idle time
are always the last ones. A full cache drops its entries from that end, and what is live goes only
when everything else is live too.

## Main definitions

* `Clocked.Ranked` — the entries are few enough, differ in their branches, and stand in the order
  of their last accesses
* `Clocked.live` — the entries within their idle time

## Main results

* `Clocked.Ranked.step`, `Clocked.ranked_run` — every command and every run keep that order
* `Clocked.Ranked.entries_put` — what a full cache drops
* `Clocked.Ranked.get_cases` — what a reader finds, and what is left behind
* `Clocked.Ranked.live_take` — dropping from the end drops the live entries last
* `Clocked.Ranked.purge_eq_foldl` — a purge is the same as forgetting the entries past their idle
  time one after the other
-/

set_option autoImplicit false

namespace GlobalTransaction.Resource.StatusCache

/-- Of a list in which a property does not come back once it is lost, any first part holds on to
the members with the property as long as it can. -/
private theorem filter_take_of_pairwise {α : Type} {p : α → Bool} {l : List α}
    (h : l.Pairwise fun before behind => p behind = true → p before = true) (count : Nat) :
    (l.take count).filter p = (l.filter p).take count := by
  induction l generalizing count with
  | nil => simp
  | cons head tail ih =>
    obtain ⟨hhead, htail⟩ := List.pairwise_cons.1 h
    cases count with
    | zero => simp
    | succ count =>
      cases hp : p head with
      | true => rw [List.take_succ_cons, List.filter_cons_of_pos hp, List.filter_cons_of_pos hp,
          List.take_succ_cons, ih htail]
      | false =>
        -- nobody behind the head has the property either
        have hnone : ∀ k, (tail.take k).filter p = [] := by
          intro k
          refine List.filter_eq_nil_iff.2 fun a ha hpa => ?_
          exact Bool.false_ne_true (hp.symm.trans (hhead a (List.mem_of_mem_take ha) hpa))
        have hall := hnone tail.length
        rw [List.take_length] at hall
        rw [List.take_succ_cons, List.filter_cons_of_neg (by simp [hp]),
          List.filter_cons_of_neg (by simp [hp]), hnone, hall, List.take_nil]

variable {cache : StatusCache} {now : Nat}

/-- Forgetting branches one after the other leaves the entries about all others. -/
theorem foldl_invalidate (cache : StatusCache) (ids : List String) :
    ids.foldl invalidate cache =
      { cache with entries := cache.entries.filter fun e => decide (e.id ∉ ids) } := by
  induction ids generalizing cache with
  | nil =>
    have hall : cache.entries.filter (fun e => decide (e.id ∉ ([] : List String))) =
        cache.entries :=
      List.filter_eq_self.2 fun e _ => by simp
    rw [List.foldl_nil, hall]
  | cons id ids ih =>
    have hrest : (cache.others id).filter (fun e => decide (e.id ∉ ids)) =
        cache.entries.filter fun e => decide (e.id ∉ id :: ids) := by
      rw [others, List.filter_filter]
      refine List.filter_congr fun e _ => ?_
      simp [Bool.and_comm, Bool.beq_eq_decide_eq]
    rw [List.foldl_cons, ih, invalidate, hrest]

/-- The branches whose entries are past their idle time. -/
def expiredIds (cache : StatusCache) (now : Nat) : List String :=
  (cache.entries.filter fun e => !cache.isLive now e).map Entry.id

namespace Clocked

/-- The entries within their idle time. -/
def live (s : Clocked) : List Entry := s.cache.entries.filter (s.cache.isLive s.now)

/-- There are not more entries than there may be, no two about the same branch, and they stand in
the order of their last accesses, none of which is to come. -/
structure Ranked (s : Clocked) : Prop where
  size_le : s.cache.size ≤ s.cache.capacity
  nodup : (s.cache.entries.map Entry.id).Nodup
  descending : s.cache.entries.Pairwise fun before behind => behind.lastAccess ≤ before.lastAccess
  past : ∀ e ∈ s.cache.entries, e.lastAccess ≤ s.now

variable {s : Clocked}

theorem ranked_empty (capacity idle now : Nat) (h : 0 < capacity) :
    Ranked ⟨.empty capacity idle h, now⟩ where
  size_le := Nat.zero_le capacity
  nodup := List.nodup_nil
  descending := .nil
  past := fun _ he => nomatch he

/-! ### What keeps the order -/

/-- Entries may go, and time may pass. -/
theorem Ranked.sublist (h : s.Ranked) {entries : List Entry}
    (hsub : entries.Sublist s.cache.entries) {later : Nat} (hlater : s.now ≤ later) :
    Ranked ⟨{ s.cache with entries }, later⟩ where
  size_le := Nat.le_trans hsub.length_le h.size_le
  nodup := (hsub.map Entry.id).nodup h.nodup
  descending := h.descending.sublist hsub
  past := fun e he => Nat.le_trans (h.past e (hsub.subset he)) hlater

/-- An entry that is accessed gets to the front, if there is a place for it. -/
theorem Ranked.access (h : s.Ranked) {e : Entry} (hnow : e.lastAccess = s.now)
    {rest : List Entry} (hsub : rest.Sublist (s.cache.others e.id))
    (hplace : rest.length < s.cache.capacity) :
    Ranked ⟨{ s.cache with entries := e :: rest }, s.now⟩ := by
  have hrest : rest.Sublist s.cache.entries := hsub.trans List.filter_sublist
  have hranked := h.sublist hrest (Nat.le_refl s.now)
  refine ⟨hplace, List.nodup_cons.2 ⟨?_, hranked.nodup⟩,
    List.pairwise_cons.2 ⟨?_, hranked.descending⟩, List.forall_mem_cons.2 ⟨?_, hranked.past⟩⟩
  · -- the others are not about the branch of the entry
    rw [List.mem_map]
    rintro ⟨other, hother, hid⟩
    have hne := (List.mem_filter.1 (hsub.subset hother)).2
    simp [hid] at hne
  · intro other hother
    rw [hnow]
    exact hranked.past other hother
  · exact Nat.le_of_eq hnow

theorem mem_others {id : String} {e : Entry} :
    e ∈ cache.others id ↔ e ∈ cache.entries ∧ e.id ≠ id := by
  rw [others, List.mem_filter]
  simp

/-- Without an entry about a branch, all entries are about others. -/
theorem others_of_find?_eq_none {id : String} (h : cache.find? id = none) :
    cache.others id = cache.entries :=
  List.filter_eq_self.2 fun e he => by simpa using List.find?_eq_none.1 h e he

/-- A cache that has an entry about a branch has fewer about all others. -/
theorem length_others_lt {id : String} {e : Entry} (he : e ∈ cache.entries) (hid : e.id = id) :
    (cache.others id).length < cache.size :=
  List.length_filter_lt_length_iff_exists.2 ⟨e, he, by simp [hid]⟩

theorem Ranked.find?_eq_some_iff (h : s.Ranked) {id : String} {e : Entry} :
    s.cache.find? id = some e ↔ e ∈ s.cache.entries ∧ e.id = id := by
  constructor
  · intro hfind
    exact ⟨List.mem_of_find?_eq_some hfind, by simpa using List.find?_some hfind⟩
  · rintro ⟨he, rfl⟩
    cases hfind : s.cache.find? e.id with
    | none => exact absurd (List.find?_eq_none.1 hfind e he) (by simp)
    | some other =>
      have hother := List.mem_of_find?_eq_some hfind
      have hid : other.id = e.id := by simpa using List.find?_some hfind
      rw [List.inj_on_of_nodup_map h.nodup hother he hid]

/-- A reader finds a status if there is a live entry about the branch, which then gets to the
front. Otherwise nothing about the branch is left. -/
theorem Ranked.get_cases (h : s.Ranked) (id : String) :
    (∃ e ∈ s.live, e.id = id ∧
      s.cache.get s.now id =
        ⟨{ s.cache with entries := { e with lastAccess := s.now } :: s.cache.others id },
          some e.status, [.counted .cacheHit]⟩) ∨
    ((∀ e ∈ s.live, e.id ≠ id) ∧
      s.cache.get s.now id = ⟨s.cache.invalidate id, none, [.counted .cacheMiss]⟩) := by
  cases hfind : s.cache.find? id with
  | none =>
    have hnone := List.find?_eq_none.1 hfind
    refine .inr ⟨fun e he hid => hnone e (List.mem_filter.1 he).1 (by simp [hid]), ?_⟩
    -- there was nothing to forget
    rw [get, hfind, invalidate, others_of_find?_eq_none hfind]
  | some e =>
    obtain ⟨he, hid⟩ := h.find?_eq_some_iff.1 hfind
    cases hlive : s.cache.isLive s.now e with
    | true =>
      refine .inl ⟨e, List.mem_filter.2 ⟨he, hlive⟩, hid, ?_⟩
      rw [get, hfind]
      exact if_pos hlive
    | false =>
      refine .inr ⟨fun other hother hotherId => ?_, ?_⟩
      · obtain ⟨hmem, hother⟩ := List.mem_filter.1 hother
        rw [List.inj_on_of_nodup_map h.nodup hmem he (hotherId.trans hid.symm), hlive] at hother
        exact Bool.false_ne_true hother
      · rw [get, hfind]
        exact if_neg (by simp [hlive])

/-- A reader of the branch of a live entry finds its status. -/
theorem Ranked.get_of_mem_live (h : s.Ranked) {e : Entry} (he : e ∈ s.live) :
    s.cache.get s.now e.id =
      ⟨{ s.cache with entries := { e with lastAccess := s.now } :: s.cache.others e.id },
        some e.status, [.counted .cacheHit]⟩ := by
  rcases h.get_cases e.id with ⟨found, hfound, hid, hget⟩ | ⟨hnone, -⟩
  · -- there is one entry about the branch at most
    obtain rfl := List.inj_on_of_nodup_map h.nodup (List.mem_filter.1 hfound).1
      (List.mem_filter.1 he).1 hid
    exact hget
  · exact absurd rfl (hnone e he)

/-- A status that is written gets to the front. If there is no place for it, the last entry goes,
and only then; an entry about the same branch is replaced. -/
theorem Ranked.entries_put (h : s.Ranked) (id : String) (status : Branch.Status) :
    (s.cache.put s.now id status).entries =
      ⟨id, status, s.now⟩ ::
        if s.cache.find? id = none ∧ s.cache.size = s.cache.capacity then s.cache.entries.dropLast
        else s.cache.others id := by
  have hsize := h.size_le
  refine congrArg (Entry.mk id status s.now :: ·) ?_
  cases hfind : s.cache.find? id with
  | none =>
    rw [others_of_find?_eq_none hfind]
    by_cases hfull : s.cache.size = s.cache.capacity
    · rw [if_pos ⟨rfl, hfull⟩, List.dropLast_eq_take, ← hfull, size]
    · rw [if_neg fun hboth => hfull hboth.2, List.take_of_length_le]
      rw [size] at hsize hfull
      omega
  | some e =>
    obtain ⟨he, hid⟩ := h.find?_eq_some_iff.1 hfind
    have hplace := length_others_lt he hid
    have hroom : (s.cache.others id).length ≤ s.cache.capacity - 1 := by omega
    rw [if_neg fun hboth => Option.some_ne_none e hboth.1]
    exact List.take_of_length_le hroom

/-- No command changes how much a cache remembers and for how long. -/
theorem settings_step (s : Clocked) (command : Command) :
    (s.step command).state.cache.capacity = s.cache.capacity ∧
      (s.step command).state.cache.idle = s.cache.idle := by
  cases command with
  | get id =>
    rw [step, get]
    split
    · split
      · exact ⟨rfl, rfl⟩
      · exact ⟨rfl, rfl⟩
    · exact ⟨rfl, rfl⟩
  | put | invalidate | purge | wait => exact ⟨rfl, rfl⟩

theorem settings_run (s : Clocked) (commands : List Command) :
    (run s commands).state.cache.capacity = s.cache.capacity ∧
      (run s commands).state.cache.idle = s.cache.idle := by
  refine Outcome.run_induction
    (P := fun t : Clocked => t.cache.capacity = s.cache.capacity ∧ t.cache.idle = s.cache.idle)
    (fun t command h => ?_) ⟨rfl, rfl⟩ commands
  obtain ⟨hcapacity, hidle⟩ := settings_step t command
  exact ⟨hcapacity.trans h.1, hidle.trans h.2⟩

/-- Every command keeps the entries in their order. -/
theorem Ranked.step (h : s.Ranked) (command : Command) : (s.step command).state.Ranked := by
  cases command with
  | put id status =>
    refine h.access (e := ⟨id, status, s.now⟩) rfl (List.take_sublist _ _) ?_
    have hlength := List.length_take_le (s.cache.capacity - 1) (s.cache.others id)
    have hpos := s.cache.capacity_pos
    omega
  | get id =>
    rcases h.get_cases id with ⟨e, he, hid, hget⟩ | ⟨-, hget⟩
    · have hmem := (List.mem_filter.1 he).1
      have hranked := h.access (e := { e with lastAccess := s.now }) rfl
        (List.Sublist.refl (s.cache.others e.id))
        (Nat.lt_of_lt_of_le (length_others_lt hmem rfl) h.size_le)
      rw [Clocked.step, hget, ← hid]
      exact hranked
    · rw [Clocked.step, hget]
      exact h.sublist List.filter_sublist (Nat.le_refl s.now)
  | invalidate id => exact h.sublist List.filter_sublist (Nat.le_refl s.now)
  | purge => exact h.sublist List.filter_sublist (Nat.le_refl s.now)
  | wait milliseconds =>
    exact h.sublist (List.Sublist.refl _) (Nat.le_add_right s.now milliseconds)

/-- The entries of a new cache stay in their order. -/
theorem ranked_run {capacity : Nat} (hpos : 0 < capacity) (idle now : Nat)
    (commands : List Command) : (run ⟨.empty capacity idle hpos, now⟩ commands).state.Ranked :=
  Outcome.run_induction (P := Ranked) (fun _ command hs => hs.step command)
    (ranked_empty capacity idle now hpos) commands

/-! ### Live entries -/

/-- What stands in front of a live entry was accessed later, so it is live too. -/
theorem Ranked.pairwise_isLive (h : s.Ranked) :
    s.cache.entries.Pairwise fun before behind =>
      s.cache.isLive s.now behind = true → s.cache.isLive s.now before = true := by
  refine h.descending.imp fun {before behind} hle hlive => ?_
  simp only [isLive, decide_eq_true_eq] at hlive ⊢
  omega

/-- The live entries about all other branches. -/
theorem live_others (s : Clocked) (id : String) :
    (s.cache.others id).filter (s.cache.isLive s.now) = s.live.filter fun e => !(e.id == id) :=
  List.filter_comm _ _ _

/-- Of the entries about all other branches, dropping from the end drops the live ones last. -/
theorem Ranked.live_take (h : s.Ranked) (id : String) (count : Nat) :
    ((s.cache.others id).take count).filter (s.cache.isLive s.now) =
      (s.live.filter fun e => !(e.id == id)).take count := by
  have hothers : (s.cache.others id).Pairwise fun before behind =>
      s.cache.isLive s.now behind = true → s.cache.isLive s.now before = true :=
    h.pairwise_isLive.sublist List.filter_sublist
  rw [filter_take_of_pairwise hothers, live_others]

/-- An entry is live as long as the idle time has not passed since its last access. -/
theorem Ranked.isLive_eq (h : s.Ranked) {e : Entry} (he : e ∈ s.cache.entries) :
    s.cache.isLive s.now e = decide (s.now < e.lastAccess + s.cache.idle) := by
  have hpast := h.past e he
  rw [isLive, decide_eq_decide]
  omega

theorem Ranked.mem_live_iff (h : s.Ranked) {e : Entry} :
    e ∈ s.live ↔ e ∈ s.cache.entries ∧ s.now < e.lastAccess + s.cache.idle := by
  rw [live, List.mem_filter]
  refine and_congr_right fun he => ?_
  rw [h.isLive_eq he, decide_eq_true_eq]

/-- Which entries are live depends on the idle time alone. -/
theorem isLive_congr {other : StatusCache} (h : cache.idle = other.idle) :
    cache.isLive = other.isLive := by
  funext now e
  rw [isLive, isLive, h]

/-- An entry that is live later on is live now. -/
theorem isLive_of_le {later : Nat} (hle : now ≤ later) {e : Entry}
    (h : cache.isLive later e = true) : cache.isLive now e = true := by
  simp only [isLive, decide_eq_true_eq] at h ⊢
  omega

/-- A purge is the same as forgetting the branches whose entries are past their idle time, one
after the other. -/
theorem Ranked.purge_eq_foldl (h : s.Ranked) :
    (s.cache.purge s.now).state = (s.cache.expiredIds s.now).foldl invalidate s.cache := by
  have hkept : s.cache.entries.filter (s.cache.isLive s.now) =
      s.cache.entries.filter fun e => decide (e.id ∉ s.cache.expiredIds s.now) := by
    refine List.filter_congr fun e he => ?_
    -- no other entry is about the branch, so it has expired exactly if this entry has
    have hexpired : e.id ∈ s.cache.expiredIds s.now ↔ s.cache.isLive s.now e = false := by
      simp only [expiredIds, List.mem_map, List.mem_filter, Bool.not_eq_true']
      constructor
      · rintro ⟨other, ⟨hother, hlive⟩, hid⟩
        rw [← List.inj_on_of_nodup_map h.nodup hother he hid]
        exact hlive
      · intro hlive
        exact ⟨e, ⟨he, hlive⟩, rfl⟩
    simp [hexpired]
  rw [foldl_invalidate, purge, hkept]

end Clocked

end GlobalTransaction.Resource.StatusCache
