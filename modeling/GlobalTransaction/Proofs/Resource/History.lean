import GlobalTransaction.Proofs.Resource.Calls
import GlobalTransaction.Proofs.Runs
import GlobalTransaction.Resource.Connection

/-!
# Requests are decided by history

A keeper decides by its own mapping and by a flag in the resource. Seen from outside, it decides
by what has happened: by the latest effective request about the key, and by the latest effective
request about the resource, to whichever keeper that was made. Requests that were refused do not
count.

## Main definitions

* `Depot.effective` — the effective requests among commands with their answers
* `Depot.latestAt`, `Depot.latestOf` — the latest one about a key, and about a resource
* `Depot.Holding`, `Depot.KeyFree`, `Depot.ResourceFree` — what the latest ones were
* `Depot.Follows` — a depot is what effective requests have made of it

## Main results

* `Depot.Follows.step` — every command keeps a depot in step with the requests
* `Depot.decided_by_history` — what keepers answer, in terms of the effective requests so far
-/

set_option autoImplicit false

namespace GlobalTransaction.Resource

variable {R : Type} {n : Nat}

namespace Depot

/-- The effective requests among commands with their answers, the first one first. -/
def effective (past : List (Command R n × Answer R)) : List (Call R n) :=
  past.filterMap Call.ofReply?

/-- The latest effective request to a keeper about a key. -/
def latestAt (calls : List (Call R n)) (k : Fin n) (key : String) : Option (Call R n) :=
  (calls.filter fun call => decide (k = call.keeper ∧ key = call.key)).getLast?

/-- The latest effective request to a keeper about a key was to hold a resource. -/
def Holding (calls : List (Call R n)) (k : Fin n) (key : String) (resource : R) : Prop :=
  ∃ call, latestAt calls k key = some call ∧ call.operation = .hold ∧ call.resource = resource

/-- No effective request to a keeper was about a key, or the latest one was a release. -/
def KeyFree (calls : List (Call R n)) (k : Fin n) (key : String) : Prop :=
  ∀ call, latestAt calls k key = some call → call.operation = .release

theorem Call.kept_eq_some_iff {call : Call R n} {resource : R} :
    call.kept = some resource ↔ call.operation = .hold ∧ call.resource = resource := by
  obtain ⟨operation, k, key, offered⟩ := call
  cases operation <;> simp [Call.kept]

theorem Call.kept_eq_none_iff {call : Call R n} :
    call.kept = none ↔ call.operation = .release := by
  obtain ⟨operation, k, key, offered⟩ := call
  cases operation <;> simp [Call.kept]

theorem latestAt_append (calls : List (Call R n)) (call : Call R n) (k : Fin n) (key : String) :
    latestAt (calls ++ [call]) k key =
      if k = call.keeper ∧ key = call.key then some call else latestAt calls k key := by
  by_cases h : k = call.keeper ∧ key = call.key <;> simp [latestAt, h]

variable [DecidableEq R]

/-- The latest effective request about a resource, to any keeper and about any key. -/
def latestOf (calls : List (Call R n)) (resource : R) : Option (Call R n) :=
  (calls.filter fun call => decide (resource = call.resource)).getLast?

/-- No effective request was about a resource, or the latest one was a release. -/
def ResourceFree (calls : List (Call R n)) (resource : R) : Prop :=
  ∀ call, latestOf calls resource = some call → call.operation = .release

theorem latestOf_append (calls : List (Call R n)) (call : Call R n) (resource : R) :
    latestOf (calls ++ [call]) resource =
      if resource = call.resource then some call else latestOf calls resource := by
  by_cases h : resource = call.resource <;> simp [latestOf, h]

/-! ### The depot that requests have made -/

/-- A depot is what effective requests have made of it: a key has what its latest request left
there, and a flag is set if the latest request about its resource left it somewhere. -/
structure Follows (d : Depot R n) (calls : List (Call R n)) : Prop where
  lookup_eq : ∀ k key, d.lookup k key = (latestAt calls k key).bind Call.kept
  isHeld_eq : ∀ resource, d.isHeld resource = ((latestOf calls resource).bind Call.kept).isSome

theorem follows_empty (infos : Vector Info n) (cache : StatusCache) :
    (empty infos cache : Depot R n).Follows [] where
  lookup_eq k key := by
    simp [empty, latestAt, Depot.lookup, Depot.keeper, Keeper.empty, Keeper.lookup]
  isHeld_eq resource := by simp [empty, latestOf, isHeld]

variable {d : Depot R n} {calls : List (Call R n)}

theorem Follows.carried (h : d.Follows calls) {call : Call R n} {behind : Depot R n}
    (hcarried : d.Carried call behind) : behind.Follows (calls ++ [call]) where
  lookup_eq k key := by
    rw [hcarried.lookup_eq, latestAt_append, h.lookup_eq]
    split <;> rfl
  isHeld_eq resource := by
    rw [hcarried.isHeld_eq, latestOf_append, h.isHeld_eq]
    split <;> rfl

/-- Every command that sets no flag from outside keeps a depot in step with the requests. -/
theorem Follows.step {past : List (Command R n × Answer R)} (h : d.Follows (effective past))
    (describe : Depot R n → R → String) {command : Command R n}
    (hflag : command.setsFlag = false) :
    (step describe d command).state.Follows
      (effective (past ++ [(command, (step describe d command).answer)])) := by
  rw [effective, List.filterMap_append]
  rcases step_cases describe d command hflag with ⟨hnone, hlookup, hheld⟩ | ⟨call, hcall, -, hcarried⟩
  · rw [List.filterMap_cons_none hnone, List.filterMap_nil, List.append_nil]
    constructor
    · rw [hlookup]
      exact h.lookup_eq
    · rw [hheld]
      exact h.isHeld_eq
  -- only an effective request gets into the history, and the depot takes it over
  · rw [List.filterMap_cons_some hcall, List.filterMap_nil]
    exact h.carried hcarried

theorem Follows.lookup_eq_some_iff (h : d.Follows calls) {k : Fin n} {key : String}
    {resource : R} : d.lookup k key = some resource ↔ Holding calls k key resource := by
  simp only [h.lookup_eq, Option.bind_eq_some_iff, Call.kept_eq_some_iff, Holding]

theorem Follows.lookup_eq_none_iff (h : d.Follows calls) {k : Fin n} {key : String} :
    d.lookup k key = none ↔ KeyFree calls k key := by
  simp only [h.lookup_eq, Option.bind_eq_none_iff, Call.kept_eq_none_iff, KeyFree]

theorem Follows.isHeld_eq_false_iff (h : d.Follows calls) {resource : R} :
    d.isHeld resource = false ↔ ResourceFree calls resource := by
  simp only [h.isHeld_eq, Option.isSome_eq_false_iff, Option.isNone_iff_eq_none,
    Option.bind_eq_none_iff, Call.kept_eq_none_iff, ResourceFree]

/-- A request to hold is effective exactly if it repeats the latest request about its key, or the
latest requests about its key and about its resource have left both free. -/
theorem Follows.permits_hold_iff (h : d.Follows calls) {k : Fin n} {key : String} {resource : R} :
    d.Permits ⟨.hold, k, key, resource⟩ ↔
      Holding calls k key resource ∨ KeyFree calls k key ∧ ResourceFree calls resource := by
  rw [← h.lookup_eq_some_iff, ← h.lookup_eq_none_iff, ← h.isHeld_eq_false_iff]
  exact Iff.rfl

/-- What keepers that start empty answer is decided by the effective requests so far, as long as no
flag is set from outside. A release needs that the latest request about its key was to hold that
resource. A hold needs the same, and then answers with the resource, or it needs that key and
resource are both free, and then answers with nothing. Keepers find what was held last and not
released. A refused command changes no later answer. -/
theorem decided_by_history (describe : Depot R n → R → String) (infos : Vector Info n)
    (cache : StatusCache) (commands : List (Command R n))
    (hflags : ∀ command ∈ commands, command.setsFlag = false) (k : Fin n) (key : String)
    (resource : R) :
    let d := (run describe (empty infos cache) commands).state
    let calls := effective (Outcome.replies (step describe) (empty infos cache) commands)
    ((∃ released, (d.release describe k key resource).answer = .ok released) ↔
      Holding calls k key resource) ∧
    ((∃ previous, (d.hold describe k key resource).answer = .ok previous) ↔
      Holding calls k key resource ∨ KeyFree calls k key ∧ ResourceFree calls resource) ∧
    (∀ previous, (d.hold describe k key resource).answer = .ok previous →
      (Holding calls k key resource → previous = some resource) ∧
        (¬ Holding calls k key resource → previous = none)) ∧
    (d.lookup k key = some resource ↔ Holding calls k key resource) ∧
    (d.lookup k key = none ↔ KeyFree calls k key) ∧
    (∀ command later, (step describe d command).answer.isRefusal = true →
      (run describe (step describe d command).state later).answer =
        (run describe d later).answer) := by
  intro d calls
  have hfollows : d.Follows calls :=
    Outcome.run_replies_induction (P := fun past d => d.Follows (effective past))
      (follows_empty infos cache) (fun _ _ _ hflag h => h.step describe hflag)
      (Outcome.Admits.of_forall_mem hflags (empty infos cache))
  refine ⟨?_, ?_, ?_, hfollows.lookup_eq_some_iff, hfollows.lookup_eq_none_iff, ?_⟩
  · rw [release_isOk_iff, ← hfollows.lookup_eq_some_iff]
    exact Iff.rfl
  · rw [hold_isOk_iff, hfollows.permits_hold_iff]
  -- the answer to a hold shows whether the key had the resource, so whether it was a repetition
  · intro previous hok
    have hprevious := hold_answer_eq hok
    constructor
    · intro hholding
      rw [hprevious, if_pos (hfollows.lookup_eq_some_iff.2 hholding)]
    · intro hnot
      rw [hprevious, if_neg fun hkept => hnot (hfollows.lookup_eq_some_iff.1 hkept)]
  -- whatever comes later starts from the same depot
  · intro command later hrefused
    rw [state_step_of_isRefusal hrefused]

/-- The first keeper holds a connection twice. The second one is refused it, and cannot release it. -/
def rivalry (first second : Fin n) : List (Command (Connection n) n) :=
  let plain : Connection n := ⟨1, none⟩
  [.hold first "x" plain, .hold second "y" plain, .hold first "x" plain, .release second "y" plain]

/-- Behind the rivalry the first keeper can release the connection, and the second one still cannot
hold it. -/
theorem decided_behind_rivalry :
    (∀ command ∈ rivalry (0 : Fin 2) 1, command.setsFlag = false) ∧
      let d := (run Connection.describe
        (empty (Vector.replicate 2 .blank) (.empty 4 600 (by decide))) (rivalry 0 1)).state
      (∃ released, (d.release Connection.describe 0 "x" ⟨1, none⟩).answer = .ok released) ∧
      ¬ ∃ previous, (d.hold Connection.describe 1 "y" ⟨1, none⟩).answer = .ok previous := by
  have hdecided := decided_by_history Connection.describe (Vector.replicate 2 .blank)
    (.empty 4 600 (by decide)) (rivalry 0 1) (by decide)
  refine ⟨by decide, (hdecided 0 "x" ⟨1, none⟩).1.2 ?_, ?_⟩
  · exact ⟨⟨.hold, 0, "x", ⟨1, none⟩⟩, by decide +kernel, rfl, rfl⟩
  · rw [(hdecided 1 "y" ⟨1, none⟩).2.1]
    rintro (⟨call, hlatest, -⟩ | ⟨-, hfree⟩)
    · exact absurd (Option.isSome_of_eq_some hlatest) (by decide +kernel)
    · exact nomatch hfree ⟨.hold, 0, "x", ⟨1, none⟩⟩ (by decide +kernel)

end Depot

end GlobalTransaction.Resource
