import GlobalTransaction.Proofs.Resource.Recency
import GlobalTransaction.Proofs.Runs

/-!
# Purging is not seen by readers

A cache that is purged now and then holds other entries than one that is not, but the same live
ones: what a purge drops is past its idle time, and would have been the first to go in any case.
Readers see live entries only, so they cannot tell the two caches apart.

## Main definitions

* `Command.isPurge` — the commands that readers do not see
* `Clocked.Alike` — two caches have the same live entries

## Main results

* `Clocked.Alike.step`, `Clocked.Alike.purge` — commands to both caches, and purges of one of them,
  leave them alike
* `Clocked.purges_unseen` — runs with and without purges, and what a purge drops
-/

set_option autoImplicit false

namespace GlobalTransaction.Resource.StatusCache

/-- The command purges the cache. -/
def Command.isPurge : Command → Bool
  | .purge => true
  | .put _ _ | .get _ | .invalidate _ | .wait _ => false

namespace Clocked

variable {s other : Clocked}

/-- Two caches have room for as many entries, which live as long, and have the same live entries
at the same time. The entries of both stand in order. -/
structure Alike (s other : Clocked) : Prop where
  ranked : s.Ranked
  ranked_other : other.Ranked
  capacity_eq : s.cache.capacity = other.cache.capacity
  idle_eq : s.cache.idle = other.cache.idle
  now_eq : s.now = other.now
  live_eq : s.live = other.live

theorem Alike.isLive_eq (h : s.Alike other) : s.cache.isLive = other.cache.isLive :=
  isLive_congr h.idle_eq

/-- Caches keep the same live entries when the same entry gets to the front in both, before others
of which the same ones are live. -/
theorem Alike.live_access (h : s.Alike other) {e otherEntry : Entry} (he : e = otherEntry)
    {rest otherRest : List Entry}
    (hrest : rest.filter (s.cache.isLive s.now) = otherRest.filter (other.cache.isLive other.now)) :
    live ⟨{ s.cache with entries := e :: rest }, s.now⟩ =
      live ⟨{ other.cache with entries := otherEntry :: otherRest }, other.now⟩ := by
  change (e :: rest).filter (s.cache.isLive s.now) =
    (otherEntry :: otherRest).filter (other.cache.isLive other.now)
  rw [List.filter_cons, List.filter_cons, hrest, he, h.isLive_eq, h.now_eq]

theorem Alike.put (h : s.Alike other) (id : String) (status : Branch.Status) :
    (s.step (.put id status)).state.live = (other.step (.put id status)).state.live := by
  -- the same number of live entries about other branches finds a place
  have hrest : ((s.cache.others id).take (s.cache.capacity - 1)).filter (s.cache.isLive s.now) =
      ((other.cache.others id).take (other.cache.capacity - 1)).filter
        (other.cache.isLive other.now) := by
    rw [h.ranked.live_take, h.ranked_other.live_take, h.live_eq, h.capacity_eq]
  exact h.live_access (congrArg (Entry.mk id status) h.now_eq) hrest

theorem Alike.live_others_eq (h : s.Alike other) (id : String) :
    (s.cache.others id).filter (s.cache.isLive s.now) =
      (other.cache.others id).filter (other.cache.isLive other.now) := by
  rw [live_others, live_others, h.live_eq]

/-- Readers of caches that are alike find the same, and leave them alike. -/
theorem Alike.get (h : s.Alike other) (id : String) :
    (s.step (.get id)).answer = (other.step (.get id)).answer ∧
      (s.step (.get id)).journal = (other.step (.get id)).journal ∧
      (s.step (.get id)).state.live = (other.step (.get id)).state.live := by
  rcases h.ranked.get_cases id with ⟨e, he, hid, hget⟩ | ⟨hnone, hget⟩
  · rcases h.ranked_other.get_cases id with ⟨e', he', hid', hget'⟩ | ⟨hnone', -⟩
    · -- there is one live entry about the branch at most
      have hmem' := (List.mem_filter.1 (h.live_eq ▸ he')).1
      obtain rfl : e = e' := List.inj_on_of_nodup_map h.ranked.nodup (List.mem_filter.1 he).1 hmem'
        (hid.trans hid'.symm)
      rw [step, step, hget, hget']
      refine ⟨rfl, rfl, ?_⟩
      exact h.live_access (congrArg (Entry.mk e.id e.status) h.now_eq) (h.live_others_eq id)
    · exact absurd hid (hnone' e (h.live_eq ▸ he))
  · rcases h.ranked_other.get_cases id with ⟨e', he', hid', -⟩ | ⟨-, hget'⟩
    · exact absurd hid' (hnone e' (h.live_eq ▸ he'))
    · -- either cache forgets what it has about the branch
      rw [step, step, hget, hget']
      exact ⟨rfl, rfl, h.live_others_eq id⟩

/-- When time passes, only what was live before can be live. -/
theorem live_wait (s : Clocked) (milliseconds : Nat) :
    (s.step (.wait milliseconds)).state.live =
      s.live.filter (s.cache.isLive (s.now + milliseconds)) := by
  change s.cache.entries.filter (s.cache.isLive (s.now + milliseconds)) = _
  rw [live, List.filter_filter]
  refine List.filter_congr fun e _ => ?_
  cases hlater : s.cache.isLive (s.now + milliseconds) e with
  | false => rfl
  | true => rw [isLive_of_le (Nat.le_add_right s.now milliseconds) hlater, Bool.and_self]

/-- A command to both of two caches that are alike leaves them alike, with the same answer and the
same events, if it is no purge. -/
theorem Alike.step (h : s.Alike other) {command : Command} (hpurge : command.isPurge = false) :
    (s.step command).answer = (other.step command).answer ∧
      (s.step command).journal = (other.step command).journal ∧
      (s.step command).state.Alike (other.step command).state := by
  obtain ⟨hcapacity, hidle⟩ := settings_step s command
  obtain ⟨hcapacity_other, hidle_other⟩ := settings_step other command
  have halike : (s.step command).state.now = (other.step command).state.now →
      (s.step command).state.live = (other.step command).state.live →
      (s.step command).state.Alike (other.step command).state := fun hnow hlive =>
    { ranked := h.ranked.step command
      ranked_other := h.ranked_other.step command
      capacity_eq := by rw [hcapacity, hcapacity_other, h.capacity_eq]
      idle_eq := by rw [hidle, hidle_other, h.idle_eq]
      now_eq := hnow
      live_eq := hlive }
  cases command with
  | put id status => exact ⟨rfl, rfl, halike h.now_eq (h.put id status)⟩
  | get id =>
    obtain ⟨hanswer, hjournal, hlive⟩ := h.get id
    exact ⟨hanswer, hjournal, halike h.now_eq hlive⟩
  | invalidate id => exact ⟨rfl, rfl, halike h.now_eq (h.live_others_eq id)⟩
  | purge => exact nomatch hpurge
  | wait milliseconds =>
    refine ⟨rfl, rfl, halike (congrArg (· + milliseconds) h.now_eq) ?_⟩
    rw [live_wait, live_wait, h.live_eq, h.isLive_eq, h.now_eq]

/-- A purge of one of two caches that are alike leaves them alike. -/
theorem Alike.purge (h : s.Alike other) : (s.step .purge).state.Alike other := by
  refine ⟨h.ranked.step .purge, h.ranked_other, h.capacity_eq, h.idle_eq, h.now_eq, ?_⟩
  have hlive : (s.step .purge).state.live = s.live := by
    change (s.cache.entries.filter (s.cache.isLive s.now)).filter (s.cache.isLive s.now) = s.live
    rw [List.filter_filter, live]
    simp only [Bool.and_self]
  rw [hlive, h.live_eq]

/-! ### What a purge drops -/

/-- A purge drops the entries whose last access is the idle time or more ago, tells how many they
are, and leaves the others as they are. -/
theorem Ranked.purge_eq (h : s.Ranked) :
    s.step .purge =
      { state :=
          { s with
            cache :=
              { s.cache with
                entries := s.cache.entries.filter fun e =>
                  decide (s.now < e.lastAccess + s.cache.idle) } }
        answer := .dropped (s.cache.entries.countP fun e =>
          decide (e.lastAccess + s.cache.idle ≤ s.now)) } := by
  have hkept : s.cache.entries.filter (s.cache.isLive s.now) =
      s.cache.entries.filter fun e => decide (s.now < e.lastAccess + s.cache.idle) :=
    List.filter_congr fun e he => h.isLive_eq he
  have hdropped : (s.cache.entries.countP fun e => !s.cache.isLive s.now e) =
      s.cache.entries.countP fun e => decide (e.lastAccess + s.cache.idle ≤ s.now) := by
    refine List.countP_congr fun e he => ?_
    rw [h.isLive_eq he]
    simp
  rw [Clocked.step, StatusCache.purge, hkept, hdropped]

/-! ### Runs -/

/-- Take a new cache, with room for any number of entries and with any idle time, and purge it at
any places of a run. All other commands of the run are answered as they are without the purges,
and the same hits and misses are counted. Behind every run a purge drops exactly the entries whose
last access is the idle time or more ago, and tells how many they are. The others stay in their
order and with their last accesses. The same is left when the branches whose entries are past
their idle time are forgotten one after the other. -/
theorem purges_unseen (capacity idle now : Nat) (h : 0 < capacity) (commands : List Command) :
    let start : Clocked := ⟨.empty capacity idle h, now⟩
    let unpurged := commands.filter fun command => !command.isPurge
    let s := (run start commands).state
    ((Outcome.replies step start commands).filter fun reply => !reply.1.isPurge) =
        Outcome.replies step start unpurged ∧
      (run start commands).journal = (run start unpurged).journal ∧
      s.step .purge =
        { state :=
            { s with
              cache :=
                { s.cache with
                  entries := s.cache.entries.filter fun e =>
                    decide (s.now < e.lastAccess + s.cache.idle) } }
          answer := .dropped (s.cache.entries.countP fun e =>
            decide (e.lastAccess + s.cache.idle ≤ s.now)) } ∧
      (s.step .purge).state.cache =
        (s.cache.expiredIds s.now).foldl StatusCache.invalidate s.cache := by
  intro start unpurged s
  have hstart : start.Ranked := ranked_empty capacity idle now h
  have hs : s.Ranked :=
    Outcome.run_induction (P := Ranked) (fun _ command hs => hs.step command) hstart commands
  have halike : start.Alike start := ⟨hstart, hstart, rfl, rfl, rfl, rfl⟩
  have hkeep : ∀ (s other : Clocked) (command : Command), (!command.isPurge) = true →
      s.Alike other → (s.step command).answer = (other.step command).answer ∧
        (s.step command).journal = (other.step command).journal ∧
        (s.step command).state.Alike (other.step command).state := by
    intro s other command hkept hs
    exact hs.step (by simpa using hkept)
  have hskip : ∀ (s other : Clocked) (command : Command), (!command.isPurge) = false →
      s.Alike other → (s.step command).journal = [] ∧ (s.step command).state.Alike other := by
    intro s other command hkept hs
    cases command with
    | purge => exact ⟨rfl, hs.purge⟩
    | put | get | invalidate | wait => exact nomatch hkept
  obtain ⟨hreplies, hjournal⟩ := Outcome.replies_filter hkeep hskip halike commands
  exact ⟨hreplies, hjournal, hs.purge_eq, hs.purge_eq_foldl⟩

/-- A branch is past its idle time when a cache with two places is purged, and comes back while
another one is live. Without the purge its old entry still takes a place. -/
theorem purge_unseen_before_return :
    let start : Clocked := ⟨.empty 2 10 (by decide), 0⟩
    let commands : List Command :=
      [.put "a" .registered, .wait 5, .put "b" .phaseOneDone, .wait 5, .purge,
        .put "a" .phaseOneFailed, .get "b", .put "c" .registered, .get "b", .get "a"]
    let unpurged := commands.filter fun command => !command.isPurge
    0 < 2 ∧
      ((Outcome.replies step start commands).filter fun reply => !reply.1.isPurge) =
        Outcome.replies step start unpurged ∧
      (run start commands).journal = (run start unpurged).journal ∧
      (run start commands).answer =
        [.done, .done, .done, .done, .dropped 1, .done, .found (some .phaseOneDone), .done,
          .found (some .phaseOneDone), .found none] := by
  intro start commands unpurged
  obtain ⟨hreplies, hjournal, -⟩ := purges_unseen 2 10 0 (by decide) commands
  exact ⟨by decide, hreplies, hjournal, by decide⟩

end Clocked

end GlobalTransaction.Resource.StatusCache
