import GlobalTransaction.Proofs.Resource.Calls
import GlobalTransaction.Proofs.Runs
import GlobalTransaction.Resource.Connection

/-!
# Flags and mappings agree

Keepers do not know of each other. What keeps them from taking the same resource is one flag in
the resource itself. As long as nobody else touches the flags, they say exactly which resources
are kept, and no resource is kept twice.

## Main definitions

* `Depot.Keeps` — a keeper keeps a resource for a key
* `Depot.Agrees` — the flags say which resources are kept, and nothing is kept twice
* `Depot.Coherent` — the same of what is looked up, which every request keeps

## Main results

* `Depot.Coherent.carried` — an effective request keeps flags and mappings in step
* `Depot.agrees_run` — they agree behind every run of keepers that start empty
-/

set_option autoImplicit false

namespace GlobalTransaction.Resource

variable {R : Type} {n : Nat}

namespace Depot

/-- A keeper keeps a resource for a key. -/
def Keeps (d : Depot R n) (k : Fin n) (key : String) (resource : R) : Prop :=
  (key, resource) ∈ (d.keeper k).kept

theorem Keyed.keeps_iff {d : Depot R n} (h : d.Keyed) {k : Fin n} {key : String} {resource : R} :
    d.Keeps k key resource ↔ d.lookup k key = some resource :=
  Table.mem_iff_lookup_eq_some (h k)

theorem Call.eq_of_kept_eq_some {call : Call R n} {resource : R}
    (h : call.kept = some resource) : resource = call.resource := by
  obtain ⟨operation, k, key, offered⟩ := call
  cases operation with
  | hold => exact (Option.some.inj h).symm
  | release => exact nomatch h

variable [DecidableEq R]

/-- The flags say which resources are kept, and nothing is kept twice. -/
structure Agrees (d : Depot R n) : Prop where
  /-- A flag is set exactly if some keeper keeps the resource. -/
  isHeld_iff : ∀ resource, d.isHeld resource = true ↔ ∃ k key, d.Keeps k key resource
  /-- Over all keepers together, a resource is kept at one place at most. -/
  place_unique : ∀ {k key other otherKey resource}, d.Keeps k key resource →
    d.Keeps other otherKey resource → other = k ∧ otherKey = key
  /-- A key of a keeper has one resource at most. -/
  resource_unique : ∀ {k key resource other}, d.Keeps k key resource → d.Keeps k key other →
    other = resource

/-- What is looked up agrees with the flags, and no resource is found at two places. -/
structure Coherent (d : Depot R n) : Prop where
  isHeld_iff : ∀ resource, d.isHeld resource = true ↔ ∃ k key, d.lookup k key = some resource
  place_unique : ∀ {k key other otherKey resource}, d.lookup k key = some resource →
    d.lookup other otherKey = some resource → other = k ∧ otherKey = key

theorem Coherent.agrees {d : Depot R n} (h : d.Coherent) (hkeyed : d.Keyed) : d.Agrees where
  isHeld_iff resource := by
    simp only [hkeyed.keeps_iff]
    exact h.isHeld_iff resource
  place_unique hk hother :=
    h.place_unique (hkeyed.keeps_iff.1 hk) (hkeyed.keeps_iff.1 hother)
  resource_unique hk hother := by
    have heq := (hkeyed.keeps_iff.1 hk).symm.trans (hkeyed.keeps_iff.1 hother)
    exact (Option.some.inj heq).symm

theorem coherent_empty (infos : Vector Info n) (cache : StatusCache) :
    (empty infos cache : Depot R n).Coherent where
  isHeld_iff resource := by
    simp [empty, isHeld, Depot.lookup, Depot.keeper, Keeper.empty, Keeper.lookup]
  place_unique h _ := by
    simp [empty, Depot.lookup, Depot.keeper, Keeper.empty, Keeper.lookup] at h

variable {d behind : Depot R n} {call : Call R n}

/-- What the key of an effective request has is the resource of the request. -/
theorem Permits.eq_of_lookup (hpermits : d.Permits call) {resource : R}
    (h : d.lookup call.keeper call.key = some resource) : resource = call.resource := by
  obtain ⟨operation, k, key, offered⟩ := call
  cases operation with
  | hold =>
    rcases hpermits with hkept | ⟨hnone, -⟩
    · exact Option.some.inj (h.symm.trans hkept)
    · exact nomatch h.symm.trans hnone
  | release => exact Option.some.inj (h.symm.trans hpermits)

/-- The resource of an effective request is kept nowhere but at the key of the request: where a
new resource is held, the flag rules out every other place. -/
theorem Coherent.place_eq_of_permits (hcoherent : d.Coherent) (hpermits : d.Permits call)
    {k : Fin n} {key : String} (h : d.lookup k key = some call.resource) :
    k = call.keeper ∧ key = call.key := by
  obtain ⟨operation, _, _, offered⟩ := call
  cases operation with
  | hold =>
    rcases hpermits with hkept | ⟨-, hfree⟩
    · exact hcoherent.place_unique hkept h
    · have hheld := (hcoherent.isHeld_iff offered).2 ⟨k, key, h⟩
      exact absurd hheld (by simp [hfree])
  | release => exact hcoherent.place_unique hpermits h

/-- Behind an effective request, a resource is found at the key of the request, or it is found
where it was before. -/
theorem Carried.lookup_eq_some (hcarried : d.Carried call behind) {k : Fin n} {key : String}
    {resource : R} (h : behind.lookup k key = some resource) :
    ((k = call.keeper ∧ key = call.key) ∧ call.kept = some resource) ∨
      (¬(k = call.keeper ∧ key = call.key) ∧ d.lookup k key = some resource) := by
  rw [hcarried.lookup_eq] at h
  split at h
  · next hplace => exact .inl ⟨hplace, h⟩
  · next hplace => exact .inr ⟨hplace, h⟩

theorem Coherent.isHeld_iff_of_carried (hcoherent : d.Coherent) (hpermits : d.Permits call)
    (hcarried : d.Carried call behind) (resource : R) :
    behind.isHeld resource = true ↔ ∃ k key, behind.lookup k key = some resource := by
  rw [hcarried.isHeld_eq]
  by_cases heq : resource = call.resource
  · rw [if_pos heq]
    constructor
    -- after a hold the key has the resource, and after a release no other place can have it
    · intro hkept
      obtain ⟨kept, hkept⟩ := Option.isSome_iff_exists.1 hkept
      refine ⟨call.keeper, call.key, ?_⟩
      rw [hcarried.lookup_eq, if_pos ⟨rfl, rfl⟩, hkept, Call.eq_of_kept_eq_some hkept, heq]
    · rintro ⟨k, key, hlookup⟩
      rcases hcarried.lookup_eq_some hlookup with ⟨-, hkept⟩ | ⟨hplace, hbefore⟩
      · exact Option.isSome_iff_exists.2 ⟨resource, hkept⟩
      · exact absurd (hcoherent.place_eq_of_permits hpermits (heq ▸ hbefore)) hplace
  · rw [if_neg heq, hcoherent.isHeld_iff]
    -- another resource cannot have been at the key of the request, nor be there now
    constructor
    · rintro ⟨k, key, hbefore⟩
      have hplace : ¬(k = call.keeper ∧ key = call.key) := by
        rintro ⟨rfl, rfl⟩
        exact heq (hpermits.eq_of_lookup hbefore)
      refine ⟨k, key, ?_⟩
      rw [hcarried.lookup_eq, if_neg hplace, hbefore]
    · rintro ⟨k, key, hlookup⟩
      rcases hcarried.lookup_eq_some hlookup with ⟨-, hkept⟩ | ⟨-, hbefore⟩
      · exact absurd (Call.eq_of_kept_eq_some hkept) heq
      · exact ⟨k, key, hbefore⟩

/-- An effective request keeps flags and mappings in step. -/
theorem Coherent.carried (hcoherent : d.Coherent) (hpermits : d.Permits call)
    (hcarried : d.Carried call behind) : behind.Coherent where
  isHeld_iff := hcoherent.isHeld_iff_of_carried hpermits hcarried
  place_unique {k key other otherKey resource} h hother := by
    -- two places that are both new are the place of the request, two old ones were unique before
    rcases hcarried.lookup_eq_some h with ⟨⟨rfl, rfl⟩, hkept⟩ | ⟨hplace, hbefore⟩
    · rcases hcarried.lookup_eq_some hother with ⟨hsame, -⟩ | ⟨-, hbefore⟩
      · exact hsame
      · rw [Call.eq_of_kept_eq_some hkept] at hbefore
        exact hcoherent.place_eq_of_permits hpermits hbefore
    · rcases hcarried.lookup_eq_some hother with ⟨-, hkept⟩ | ⟨-, hother⟩
      · rw [Call.eq_of_kept_eq_some hkept] at hbefore
        exact absurd (hcoherent.place_eq_of_permits hpermits hbefore) hplace
      · exact hcoherent.place_unique hbefore hother

theorem Coherent.step (hcoherent : d.Coherent) (describe : Depot R n → R → String)
    {command : Command R n} (hflag : command.setsFlag = false) :
    (step describe d command).state.Coherent := by
  rcases step_cases describe d command hflag with ⟨-, hlookup, hheld⟩ | ⟨_, -, hpermits, hcarried⟩
  · constructor
    · rw [hlookup, hheld]
      exact hcoherent.isHeld_iff
    · rw [hlookup]
      exact hcoherent.place_unique
  · exact hcoherent.carried hpermits hcarried

/-- However keepers that start empty are used, and however many of the requests to them fail,
the flags say exactly which resources are kept, and nothing is kept twice. Only a command that
sets a flag from outside could part them. -/
theorem agrees_run (describe : Depot R n → R → String) (infos : Vector Info n)
    (cache : StatusCache) (commands : List (Command R n))
    (hflags : ∀ command ∈ commands, command.setsFlag = false) :
    (run describe (empty infos cache) commands).state.Agrees := by
  have hrun : Outcome.Admits (Depot.step describe) (fun _ command => command.setsFlag = false)
      (empty infos cache) commands := .of_forall_mem hflags _
  have hcoherent : (run describe (empty infos cache) commands).state.Coherent :=
    Outcome.run_admitted_induction (coherent_empty infos cache)
      (fun _ _ hflag h => h.step describe hflag) hrun
  -- one resource for each key does not depend on the flags at all
  have hkeyed : (run describe (empty infos cache) commands).state.Keyed :=
    Outcome.run_induction (fun _ command h => h.step describe command)
      (keyed_empty infos cache) commands
  exact hcoherent.agrees hkeyed

/-- Two keepers want the same connection, and then the first one wants another one under the same
key: both are refused, as is the release of what is not kept. -/
def contest (first second : Fin n) : List (Command (Connection n) n) :=
  let plain : Connection n := ⟨1, none⟩
  let pooled : Connection n := ⟨2, some second⟩
  [.hold first "x" plain, .hold second "y" plain, .hold first "x" pooled,
    .release second "y" plain, .hold second "y" pooled, .release first "x" plain,
    .hold second "y" pooled, .lookup first "x"]

/-- The flags agree with what is kept, though three requests of the contest are refused. -/
theorem agrees_behind_contest :
    (∀ command ∈ contest (0 : Fin 2) 1, command.setsFlag = false) ∧
      (run Connection.describe (empty (Vector.replicate 2 .blank) (.empty 4 600 (by decide)))
        (contest 0 1)).state.Agrees :=
  ⟨by decide, agrees_run Connection.describe _ _ (contest 0 1) (by decide)⟩

end Depot

end GlobalTransaction.Resource
