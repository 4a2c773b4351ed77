import GlobalTransaction.Proofs.Resource.Recency
import GlobalTransaction.Proofs.Runs

/-!
# More room is never worse

Two caches get the same commands, and one of them has room for more entries. It remembers
whatever the other one remembers, with the same statuses and the same last accesses, and in the
same order. It need not be the other one with more entries behind: a reader that finds nothing in
the small cache can bring an entry to the front of the large one, before all that both have.

Such further entries do no harm because there are only so many of them. The large cache never has
more entries beyond those of the small one than it has room beyond its room. So when an entry that
both have is the last one of the full large cache, the small one is full too, and drops it as well.

## Main definitions

* `Answer.KeptIn` — what a reader finds in one cache is found in the other
* `Clocked.Within` — one cache remembers what the other does, which has no more to spare than room

## Main results

* `Clocked.Within.step` — every command to both caches keeps that
* `Clocked.hits_kept` — runs with two sizes of caches
-/

set_option autoImplicit false

namespace GlobalTransaction.Resource.StatusCache

/-- A part of a list that lacks at most so many of its members as it is cut shorter stays a part of
it when both are cut. -/
private theorem sublist_take_of_length_le {α : Type} {part whole : List α}
    (h : part.Sublist whole) {short long : Nat}
    (hlength : whole.length + short ≤ part.length + long) :
    (part.take short).Sublist (whole.take long) := by
  induction h generalizing short long with
  | slnil => simp
  | cons head hsub ih =>
    -- the head of the whole list takes a place of its own
    have hle := hsub.length_le
    rw [List.length_cons] at hlength
    obtain ⟨long, rfl⟩ : ∃ k, long = k + 1 := ⟨long - 1, by omega⟩
    rw [List.take_succ_cons]
    exact (ih (by omega)).cons head
  | cons_cons head hsub ih =>
    have hle := hsub.length_le
    rw [List.length_cons, List.length_cons] at hlength
    cases short with
    | zero => exact List.nil_sublist _
    | succ short =>
      obtain ⟨long, rfl⟩ : ∃ k, long = k + 1 := ⟨long - 1, by omega⟩
      rw [List.take_succ_cons, List.take_succ_cons]
      exact (ih (by omega)).cons_cons head

/-- Of a list no more members are lost beyond those of a part of it when both are filtered. -/
private theorem length_filter_add_le {α : Type} {part whole : List α} (h : part.Sublist whole)
    (p : α → Bool) :
    (whole.filter p).length + part.length ≤ (part.filter p).length + whole.length := by
  have hle := h.length_le
  have hcount := h.le_countP p
  rw [List.countP_eq_length_filter, List.countP_eq_length_filter] at hcount
  omega

/-- What a reader finds according to the first answer is found according to the second one. -/
def Answer.KeptIn (answer other : Answer) : Prop :=
  ∀ status, answer = .found (some status) → other = .found (some status)

/-- The entries of one cache are among those of another one, in the same order. The other one has
no more entries beyond than it has more room. -/
structure PartOf (small large : StatusCache) : Prop where
  sublist : small.entries.Sublist large.entries
  extra_le : large.size + small.capacity ≤ small.size + large.capacity

section PartOf

variable {small large : StatusCache}

theorem PartOf.filter (h : small.PartOf large) (p : Entry → Bool) :
    PartOf { small with entries := small.entries.filter p }
      { large with entries := large.entries.filter p } where
  sublist := h.sublist.filter p
  extra_le := by
    have hlost := length_filter_add_le h.sublist p
    have hextra := h.extra_le
    rw [size, size] at hextra ⊢
    dsimp only
    omega

theorem PartOf.invalidate (h : small.PartOf large) (id : String) :
    (small.invalidate id).PartOf (large.invalidate id) := h.filter _

/-- One place is made in both caches, where it is needed. -/
theorem PartOf.makePlace (h : small.PartOf large) :
    PartOf { small with entries := small.entries.take (small.capacity - 1) }
      { large with entries := large.entries.take (large.capacity - 1) } := by
  have hextra := h.extra_le
  have hsmall := small.capacity_pos
  have hlarge := large.capacity_pos
  rw [size, size] at hextra
  refine ⟨sublist_take_of_length_le h.sublist (by omega), ?_⟩
  rw [size, size, List.length_take, List.length_take]
  dsimp only
  omega

theorem PartOf.access (h : small.PartOf large) (e : Entry) :
    PartOf { small with entries := e :: small.entries }
      { large with entries := e :: large.entries } where
  sublist := h.sublist.cons_cons e
  extra_le := by
    have hextra := h.extra_le
    rw [size, size] at hextra ⊢
    rw [List.length_cons, List.length_cons]
    dsimp only
    omega

theorem PartOf.put (h : small.PartOf large) (now : Nat) (id : String) (status : Branch.Status) :
    (small.put now id status).PartOf (large.put now id status) :=
  (h.invalidate id).makePlace.access ⟨id, status, now⟩

/-- An entry that only the large cache has gets to its front. -/
theorem PartOf.access_extra (h : small.PartOf large) {id : String}
    (habsent : ∀ e ∈ small.entries, e.id ≠ id) {e : Entry} (he : e ∈ large.entries)
    (hid : e.id = id) (accessed : Entry) :
    (small.invalidate id).PartOf { large with entries := accessed :: large.others id } := by
  have hsame : small.others id = small.entries :=
    List.filter_eq_self.2 fun e he => by simpa using habsent e he
  have hplace : (large.others id).length < large.entries.length := Clocked.length_others_lt he hid
  have hextra := h.extra_le
  refine ⟨(h.invalidate id).sublist.cons accessed, ?_⟩
  rw [size, size, StatusCache.invalidate, hsame, List.length_cons]
  rw [size, size] at hextra
  dsimp only
  omega

end PartOf

namespace Clocked

/-- One cache remembers what the other one does. It is the same time, and entries live as long in
both. The entries of both stand in order. -/
structure Within (small large : Clocked) : Prop where
  ranked_small : small.Ranked
  ranked : large.Ranked
  idle_eq : small.cache.idle = large.cache.idle
  now_eq : small.now = large.now
  partOf : small.cache.PartOf large.cache

variable {small large : Clocked}

theorem Within.isLive_eq (h : small.Within large) : small.cache.isLive = large.cache.isLive :=
  isLive_congr h.idle_eq

/-- A live entry of the large cache that is in the small one is live there. -/
theorem Within.mem_live_iff (h : small.Within large) {e : Entry} :
    e ∈ small.live ↔ e ∈ small.cache.entries ∧ e ∈ large.live := by
  rw [live, live, List.mem_filter, List.mem_filter, h.isLive_eq, h.now_eq]
  constructor
  · rintro ⟨he, hlive⟩
    exact ⟨he, h.partOf.sublist.subset he, hlive⟩
  · rintro ⟨he, -, hlive⟩
    exact ⟨he, hlive⟩

/-- A reader finds in the large cache what there is to find in the small one. What only the large
cache has gets to its front. -/
theorem Within.get (h : small.Within large) (id : String) :
    (small.step (.get id)).answer.KeptIn (large.step (.get id)).answer ∧
      (small.step (.get id)).state.cache.PartOf (large.step (.get id)).state.cache := by
  have hunique : ∀ {e other : Entry}, e ∈ large.cache.entries → e.id = id →
      other ∈ large.live → other.id = id → e = other := by
    intro e other he hid hother hotherId
    exact List.inj_on_of_nodup_map h.ranked.nodup he (List.mem_filter.1 hother).1
      (hid.trans hotherId.symm)
  rcases h.ranked_small.get_cases id with ⟨e, he, hid, hsmall⟩ | ⟨hnone, hsmall⟩
  · -- the entry is in the large cache too, and there is no other about the branch
    have he' : e ∈ large.live := (h.mem_live_iff.1 he).2
    rcases h.ranked.get_cases id with ⟨e', hlive, hid', hlarge⟩ | ⟨hnone, -⟩
    · obtain rfl := hunique (List.mem_filter.1 he').1 hid hlive hid'
      rw [step, step, hsmall, hlarge, h.now_eq]
      exact ⟨fun status hstatus => hstatus, (h.partOf.invalidate id).access _⟩
    · exact absurd hid (hnone e he')
  · rcases h.ranked.get_cases id with ⟨e', hlive, hid', hlarge⟩ | ⟨-, hlarge⟩
    · -- nothing about the branch is in the small cache, for it would be the same live entry
      have habsent : ∀ e ∈ small.cache.entries, e.id ≠ id := by
        intro e he hid
        obtain rfl := hunique (h.partOf.sublist.subset he) hid hlive hid'
        exact hnone e (h.mem_live_iff.2 ⟨he, hlive⟩) hid
      rw [step, step, hsmall, hlarge]
      refine ⟨by rintro status ⟨⟩, ?_⟩
      exact h.partOf.access_extra habsent (List.mem_filter.1 hlive).1 hid' _
    · rw [step, step, hsmall, hlarge]
      exact ⟨fun status hstatus => hstatus, h.partOf.invalidate id⟩

/-- The same command to both caches is answered by the large one at least as well, and leaves
everything that the small one remembers in the large one. -/
theorem Within.step (h : small.Within large) (command : Command) :
    (small.step command).answer.KeptIn (large.step command).answer ∧
      (small.step command).state.Within (large.step command).state := by
  have hidle := (settings_step small command).2
  have hidle' := (settings_step large command).2
  have hwithin : (small.step command).state.now = (large.step command).state.now →
      (small.step command).state.cache.PartOf (large.step command).state.cache →
      (small.step command).state.Within (large.step command).state := fun hnow hpart =>
    { ranked_small := h.ranked_small.step command
      ranked := h.ranked.step command
      idle_eq := by rw [hidle, hidle', h.idle_eq]
      now_eq := hnow
      partOf := hpart }
  cases command with
  | put id status =>
    refine ⟨by rintro status ⟨⟩, hwithin h.now_eq ?_⟩
    rw [Clocked.step, Clocked.step, h.now_eq]
    exact h.partOf.put large.now id status
  | get id =>
    obtain ⟨hkept, hpart⟩ := h.get id
    exact ⟨hkept, hwithin h.now_eq hpart⟩
  | invalidate id =>
    exact ⟨by rintro status ⟨⟩, hwithin h.now_eq (h.partOf.invalidate id)⟩
  | purge =>
    refine ⟨by rintro status ⟨⟩, hwithin h.now_eq ?_⟩
    rw [Clocked.step, Clocked.step, purge, purge, h.isLive_eq, h.now_eq]
    exact h.partOf.filter _
  | wait milliseconds =>
    refine ⟨by rintro status ⟨⟩, hwithin ?_ h.partOf⟩
    exact congrArg (· + milliseconds) h.now_eq

/-- Give the same commands to two new caches of which one has room for at least as many entries.
Whenever a reader finds a status in the small cache, the same status is found in the large one at
the same place of the run. Behind the run the large cache remembers all that the small one does,
with the same last accesses and in the same order. -/
theorem hits_kept {capacity room : Nat} (hpos : 0 < capacity) (hle : capacity ≤ room)
    (idle now : Nat) (commands : List Command) :
    let small := run ⟨.empty capacity idle hpos, now⟩ commands
    let large := run ⟨.empty room idle (Nat.lt_of_lt_of_le hpos hle), now⟩ commands
    List.Forall₂ Answer.KeptIn small.answer large.answer ∧
      small.state.cache.entries.Sublist large.state.cache.entries := by
  intro small large
  have hstart : Within ⟨.empty capacity idle hpos, now⟩
      ⟨.empty room idle (Nat.lt_of_lt_of_le hpos hle), now⟩ :=
    { ranked_small := ranked_empty capacity idle now hpos
      ranked := ranked_empty room idle now _
      idle_eq := rfl
      now_eq := rfl
      partOf := ⟨List.Sublist.refl [], Nat.add_le_add_left hle 0⟩ }
  obtain ⟨hanswers, hbehind⟩ :=
    Outcome.run_related (fun _ _ command h => h.step command) hstart commands
  exact ⟨hanswers, hbehind.partOf.sublist⟩

/-- A reader brings an entry to the front of the large cache that the small one has lost. So the
caches have what they share in different places, but for a new branch they drop the same entry. -/
theorem hit_kept_behind_other_hit :
    let commands : List Command :=
      [.put "a" .registered, .put "b" .phaseOneDone, .put "c" .phaseOneFailed, .get "a",
        .put "d" .registered, .get "c", .get "b"]
    let small := run ⟨.empty 2 10 (by decide), 0⟩ commands
    let large := run ⟨.empty 3 10 (by decide), 0⟩ commands
    0 < 2 ∧ 2 ≤ 3 ∧ List.Forall₂ Answer.KeptIn small.answer large.answer ∧
      small.answer =
        [.done, .done, .done, .found none, .done, .found (some .phaseOneFailed), .found none] ∧
      large.answer =
        [.done, .done, .done, .found (some .registered), .done, .found (some .phaseOneFailed),
          .found none] := by
  intro commands small large
  obtain ⟨hkept, -⟩ := hits_kept (by decide : 0 < 2) (by decide : 2 ≤ 3) 10 0 commands
  exact ⟨by decide, by decide, hkept, by decide, by decide⟩

end Clocked

end GlobalTransaction.Resource.StatusCache
