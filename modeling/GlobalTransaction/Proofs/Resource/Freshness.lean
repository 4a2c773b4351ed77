import GlobalTransaction.Proofs.Resource.Accesses
import GlobalTransaction.Resource.Connection

/-!
# What readers find is fresh

A status that a cache gives out is the one that was written last, and nobody has forgotten it since.
It was not left alone for the idle time either. A cache that keepers share knows nothing about
them, so it does not matter who has written the status, and through which of the keepers it is read.

## Main definitions

* `Clocked.Accounted` — what a cache remembers is what has happened to the branches
* `Depot.Command.cached?` — what a command asks of the shared cache

## Main results

* `Clocked.Ranked.mem_step_cases` — where an entry comes from
* `Clocked.Accounted.step` — every command keeps a cache true to the past
* `Depot.statuses_run` — the shared cache goes through what is asked of it
* `Depot.found_status_stands` — what a reader of the shared cache finds
-/

set_option autoImplicit false

namespace GlobalTransaction.Resource

namespace StatusCache.Clocked

variable {s : Clocked} {past : List Timed}

/-- Every entry has the status that stands for its branch, as nobody has left the branch alone for
the idle time, and the time of the last access to it. -/
def Accounted (past : List Timed) (s : Clocked) : Prop :=
  ∀ e ∈ s.cache.entries, ∃ last since,
    Stands (fun before _ later => later.time < before.time + s.cache.idle) past e.id e.status
      last since ∧ last.time = e.lastAccess

/-- An entry behind a command was written by it or found by it, or it was there before and is not
about the branch that the command is for. -/
theorem Ranked.mem_step_cases (h : s.Ranked) {command : Command} {e : Entry}
    (he : e ∈ (s.step command).state.cache.entries) :
    (command = .put e.id e.status ∧ e.lastAccess = s.now) ∨
    (command = .get e.id ∧ e.lastAccess = s.now ∧
      ∃ found ∈ s.live, found.id = e.id ∧ found.status = e.status) ∨
    (command.accessed? ≠ some e.id ∧ command.changed? ≠ some e.id ∧ e ∈ s.cache.entries) := by
  have hother : ∀ {id : String}, e ∈ s.cache.others id →
      some id ≠ some e.id ∧ e ∈ s.cache.entries := by
    intro id he
    obtain ⟨hmem, hne⟩ := mem_others.1 he
    exact ⟨fun hid => hne (Option.some.inj hid).symm, hmem⟩
  have hnone : none ≠ some e.id := (Option.some_ne_none e.id).symm
  cases command with
  | put id status =>
    rcases List.mem_cons.1 he with rfl | hrest
    · exact .inl ⟨rfl, rfl⟩
    · obtain ⟨hne, hmem⟩ := hother (List.mem_of_mem_take hrest)
      exact .inr (.inr ⟨hne, hne, hmem⟩)
  | get id =>
    rcases h.get_cases id with ⟨found, hfound, hid, hget⟩ | ⟨-, hget⟩
    · rw [Clocked.step, hget] at he
      rcases List.mem_cons.1 he with rfl | hrest
      · exact .inr (.inl ⟨congrArg Command.get hid.symm, rfl, found, hfound, rfl, rfl⟩)
      · obtain ⟨hne, hmem⟩ := hother hrest
        exact .inr (.inr ⟨hne, hnone, hmem⟩)
    · rw [Clocked.step, hget] at he
      obtain ⟨hne, hmem⟩ := hother he
      exact .inr (.inr ⟨hne, hnone, hmem⟩)
  | invalidate id =>
    obtain ⟨hne, hmem⟩ := hother he
    exact .inr (.inr ⟨hnone, hne, hmem⟩)
  | purge => exact .inr (.inr ⟨hnone, hnone, (List.mem_filter.1 he).1⟩)
  | wait milliseconds => exact .inr (.inr ⟨hnone, hnone, he⟩)

/-- Every command keeps a cache true to what has happened. -/
theorem Accounted.step (h : s.Accounted past) (hranked : s.Ranked) (command : Command) :
    (s.step command).state.Accounted (past ++ [⟨s.now, command⟩]) := by
  intro e he
  rw [(settings_step s command).2]
  rcases hranked.mem_step_cases he with ⟨rfl, hnow⟩ | ⟨rfl, hnow, found, hfound, hid, hstatus⟩ |
    ⟨haccessed, hchanged, hmem⟩
  · exact ⟨⟨s.now, .put e.id e.status⟩, [], stands_append_put past s.now, hnow.symm⟩
  · -- the entry was live, so the reading came within the idle time
    obtain ⟨hmem, hlive⟩ := hranked.mem_live_iff.1 hfound
    obtain ⟨before, between, hstands, htime⟩ := h found hmem
    rw [← htime] at hlive
    rw [hid, hstatus] at hstands
    have hread := (stands_append_iff (x := ⟨s.now, .get e.id⟩)).2
      (.inr (.inl ⟨rfl, rfl, rfl, before, between, hstands, hlive⟩))
    exact ⟨⟨s.now, .get e.id⟩, [], hread, hnow.symm⟩
  · obtain ⟨last, since, hstands, htime⟩ := h e hmem
    have hother := (stands_append_iff (x := ⟨s.now, command⟩)).2 (.inr (.inr
      ⟨decide_eq_false haccessed, decide_eq_false hchanged, since, rfl, hstands⟩))
    exact ⟨last, since ++ [⟨s.now, command⟩], hother, htime⟩

/-- A new cache stays true to all that happens to it. -/
theorem accounted_run {capacity : Nat} (hpos : 0 < capacity) (idle now : Nat)
    (commands : List Command) :
    let start : Clocked := ⟨.empty capacity idle hpos, now⟩
    (run start commands).state.Accounted (start.history commands) :=
  history_induction (P := fun past s => s.Accounted past) (fun _ he => nomatch he)
    (fun _ _ command hranked h => h.step hranked command) commands

/-- A reader of a cache that is true to the past finds a status that stands until it is read. -/
theorem Accounted.stands_of_found (h : s.Accounted past) (hranked : s.Ranked) {id : String}
    {status : Branch.Status} (hfound : (s.step (.get id)).answer = .found (some status)) :
    ∃ last since,
      Stands (fun before _ later => later.time < before.time + s.cache.idle) past id status
        last since ∧ s.now < last.time + s.cache.idle := by
  rcases hranked.get_cases id with ⟨e, he, rfl, hget⟩ | ⟨-, hget⟩
  · obtain ⟨hmem, hlive⟩ := hranked.mem_live_iff.1 he
    obtain ⟨last, since, hstands, htime⟩ := h e hmem
    rw [Clocked.step, hget] at hfound
    obtain rfl := Option.some.inj (Answer.found.inj hfound)
    rw [← htime] at hlive
    exact ⟨last, since, hstands, hlive⟩
  · rw [Clocked.step, hget] at hfound
    exact absurd (Answer.found.inj hfound).symm (Option.some_ne_none status)

end StatusCache.Clocked

/-! ### Keepers that share a cache -/

namespace Depot

open StatusCache (Timed Last Consecutive Clocked)

variable {R : Type} {n : Nat}

/-- What a command asks of the shared cache. To clear a blank identifier asks nothing. -/
def Command.cached? : Command R n → Option StatusCache.Command
  | .setStatus _ id status => some (.put id status)
  | .getStatus _ id => some (.get id)
  | .clearStatus _ id => if Text.isAllBlank id.toList then none else some (.invalidate id)
  | .cache command => some command
  | .hold _ _ _ | .release _ _ _ | .lookup _ _ | .setHeld _ _ | .setShouldBeHeld _ _ => none

variable [DecidableEq R] {describe : Depot R n → R → String} {d : Depot R n}

/-- A command that asks something of the shared cache does nothing else. -/
theorem step_of_cached? {command : Command R n} {asked : StatusCache.Command}
    (h : command.cached? = some asked) : step describe d command = d.onCache asked := by
  cases command with
  | clearStatus k id =>
    rw [Command.cached?] at h
    split at h
    · exact nomatch h
    · next hblank =>
      obtain rfl := Option.some.inj h
      exact if_neg hblank
  | setStatus | getStatus | cache =>
    obtain rfl := Option.some.inj h
    rfl
  | hold | release | lookup | setHeld | setShouldBeHeld => exact nomatch h

/-- All other commands leave the shared cache as it is. -/
theorem statuses_step_of_cached?_eq_none {command : Command R n} (h : command.cached? = none) :
    (step describe d command).state.statuses = d.statuses := by
  cases command with
  | hold k key resource =>
    rw [step, Outcome.map, hold]
    split <;> split <;> rfl
  | release k key resource =>
    rw [step, Outcome.map, release]
    split
    · split <;> rfl
    · rfl
  | clearStatus k id =>
    rw [Command.cached?] at h
    split at h
    · next hblank => exact congrArg statuses (congrArg Outcome.state (if_pos hblank))
    · exact nomatch h
  | lookup | setHeld | setShouldBeHeld => rfl
  | setStatus | getStatus | cache => exact nomatch h

/-- The shared cache goes through what is asked of it, as if there were no keepers. -/
theorem statuses_run (d : Depot R n) (commands : List (Command R n)) :
    (run describe d commands).state.statuses =
      (Clocked.run d.statuses (commands.filterMap Command.cached?)).state := by
  induction commands generalizing d with
  | nil => rfl
  | cons command commands ih =>
    rw [run, Outcome.run, ih]
    cases h : command.cached? with
    | none => rw [List.filterMap_cons_none h, statuses_step_of_cached?_eq_none h]
    | some asked =>
      rw [List.filterMap_cons_some h, step_of_cached? h]
      rfl

/-- Let keepers share a new cache, with room for any number of entries and with any idle time, and
let it be used in any way, through the keepers and without them. If a reader finds a status for a
branch, then it was written by the latest command that has changed something about the branch, and
nobody has cleared it since. From that command on to this reader, any two accesses to the branch
that follow each other are less than the idle time apart. -/
theorem found_status_stands (describe : Depot R n → R → String) (d : Depot R n) {capacity : Nat}
    (hpos : 0 < capacity) (idle now : Nat) (commands : List (Command R n)) {read : Command R n}
    {id : String} {status : Branch.Status} (hread : read.cached? = some (.get id)) :
    let start : Clocked := ⟨.empty capacity idle hpos, now⟩
    let past := start.history (commands.filterMap Command.cached?)
    let s := (run describe { d with statuses := start } commands).state
    (step describe s read).answer = .cached (.found (some status)) →
      ∃ time after, Last (Timed.changes id) past ⟨time, .put id status⟩ after ∧
        ∀ e between later,
          Consecutive (Timed.accesses id)
            (⟨time, .put id status⟩ :: after ++ [⟨s.statuses.now, .get id⟩]) e between later →
            later.time < e.time + idle := by
  intro start past s hfound
  have hstatuses : s.statuses = (Clocked.run start (commands.filterMap Command.cached?)).state :=
    statuses_run _ commands
  have hranked : s.statuses.Ranked := hstatuses ▸ Clocked.ranked_run hpos idle now _
  have hidle : s.statuses.cache.idle = idle := hstatuses ▸ (Clocked.settings_run start _).2
  have haccounted : s.statuses.Accounted past := hstatuses ▸ Clocked.accounted_run hpos idle now _
  rw [step_of_cached? hread] at hfound
  obtain ⟨last, since, hstands, hlive⟩ :=
    haccounted.stands_of_found hranked (Answer.cached.inj hfound)
  rw [hidle] at hstands hlive
  exact (StatusCache.exists_consecutive_iff (decide_eq_true rfl)).2 ⟨last, since, hstands, hlive⟩

/-- The branch has a blank identifier, so its status outlives the attempt of a keeper to clear it.
It was written more than the idle time ago, but the other keeper has read it meanwhile. -/
theorem status_found_behind_blank_clearing :
    let start : Clocked := ⟨.empty 2 10 (by decide), 0⟩
    let commands : List (Command (Connection 2) 2) :=
      [.setStatus 0 " " .registered, .cache (.wait 5), .getStatus 1 " ", .clearStatus 0 " ",
        .cache (.wait 9)]
    let past := start.history (commands.filterMap Command.cached?)
    let d : Depot (Connection 2) 2 := empty (Vector.replicate 2 .blank) start.cache
    let s := (run Connection.describe { d with statuses := start } commands).state
    let read : Command (Connection 2) 2 := .cache (.get " ")
    0 < 2 ∧ read.cached? = some (.get " ") ∧
      (step Connection.describe s read).answer = .cached (.found (some .registered)) ∧
      ∃ time after, Last (Timed.changes " ") past ⟨time, .put " " .registered⟩ after ∧
        ∀ e between later,
          Consecutive (Timed.accesses " ")
            (⟨time, .put " " .registered⟩ :: after ++ [⟨s.statuses.now, .get " "⟩])
            e between later →
            later.time < e.time + 10 := by
  intro start commands past d s read
  have hasked : (s.statuses.step (.get " ")).answer = .found (some .registered) := by
    decide +kernel
  have hfound : (step Connection.describe s read).answer = .cached (.found (some .registered)) :=
    congrArg Answer.cached hasked
  exact ⟨by decide, rfl, hfound,
    found_status_stands Connection.describe d (by decide) 10 0 commands rfl hfound⟩

end Depot

end GlobalTransaction.Resource
