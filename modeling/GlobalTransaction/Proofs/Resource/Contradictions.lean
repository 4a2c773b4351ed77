import GlobalTransaction.Proofs.Resource.Calls
import GlobalTransaction.Resource.Connection

/-!
# Requests that contradict what is kept

A request that contradicts what is kept is a fault of the callers. It must not make things worse: it
changes nothing, whatever state keepers and flags are in, and its report says what was kept and what
was offered before it.

To release, a keeper takes the entry of the key out before it looks whether it is the right one. The
description of a resource may ask the keeper how much it keeps, so the entry has to be back by the
time that the report is made. The moves are made one after the other here. Of the entries of a
keeper only the order can then be another one, which no keeper tells.

## Main definitions

* `Depot.Refused` — what a refused request leaves and reports
* `Depot.SameContents` — depots that differ at most in the order of entries
* `Depot.releaseByMoves` — a request to release, one move after the other

## Main results

* `Depot.releaseByMoves_alike` — the moves of a release come to the same as the release
* `Depot.contradiction_harmless` — a request that fails changes nothing and reports truthfully
-/

set_option autoImplicit false

namespace GlobalTransaction.Resource

variable {R : Type} {n : Nat}

namespace Depot

/-! ### The order of entries -/

/-- Two depots have the same contents: keepers have the same entries, in whatever order, and all
else is the same. -/
structure SameContents (d behind : Depot R n) : Prop where
  info_eq : ∀ k, (behind.keeper k).info = (d.keeper k).info
  shouldBeHeld_eq : ∀ k, (behind.keeper k).shouldBeHeld = (d.keeper k).shouldBeHeld
  kept_perm : ∀ k, (behind.keeper k).kept.Perm (d.keeper k).kept
  held_eq : behind.held = d.held
  statuses_eq : behind.statuses = d.statuses

theorem SameContents.refl (d : Depot R n) : d.SameContents d :=
  ⟨fun _ => rfl, fun _ => rfl, fun _ => .refl _, rfl, rfl⟩

theorem SameContents.size_eq {d behind : Depot R n} (h : d.SameContents behind) (k : Fin n) :
    (behind.keeper k).size = (d.keeper k).size :=
  (h.kept_perm k).length_eq

/-- The order of entries does not show when keys are looked up. -/
theorem SameContents.lookup_eq {d behind : Depot R n} (h : d.SameContents behind) (hkeyed : d.Keyed)
    (k : Fin n) (key : String) : behind.lookup k key = d.lookup k key :=
  (Table.lookup_eq_of_perm (h.kept_perm k).symm (hkeyed k) key).symm

theorem SameContents.isHeld_eq [DecidableEq R] {d behind : Depot R n} (h : d.SameContents behind)
    (resource : R) : behind.isHeld resource = d.isHeld resource := by
  rw [isHeld, isHeld, h.held_eq]

/-- A description does not depend on the order of entries. -/
def GoesByContents (describe : Depot R n → R → String) : Prop :=
  ∀ d behind resource, d.SameContents behind → describe behind resource = describe d resource

theorem goesByContents_connection :
    GoesByContents (Connection.describe : Depot (Connection n) n → Connection n → String) := by
  rintro d behind ⟨id, pool⟩ h
  cases pool with
  | none => simp only [Connection.describe, h.isHeld_eq]
  | some k => simp only [Connection.describe, h.size_eq]

/-! ### Refusals -/

/-- The outcome of a request that was refused in a depot: the depot is as it was, what is kept and
what is offered are described as they were in it, and nothing is counted or logged but one
contradiction. -/
structure Refused {α : Type} (describe : Depot R n → R → String) (d : Depot R n)
    (operation : Operation) (k : Fin n) (key : String) (resource : R)
    (o : Outcome (Depot R n) (Except Inconsistency α)) : Prop where
  state_eq : o.state = d
  answer_eq : o.answer = .error
    { operation
      key
      kept := (d.lookup k key).elim "none" (describe d)
      offered := describe d resource }
  total_keeperFatal : o.journal.total .keeperFatal = 1
  total_eq_zero : ∀ counter, counter ≠ .keeperFatal → o.journal.total counter = 0
  lines_eq : o.journal.lines.map LogLine.text = ["ERROR resource keeper inconsistency"]

theorem refused_refuse {α : Type} (describe : Depot R n → R → String) (d : Depot R n)
    (operation : Operation) (k : Fin n) (key : String) (resource : R) :
    Refused (α := α) describe d operation k key resource
      (d.refuse describe operation key (d.lookup k key) resource) where
  state_eq := rfl
  answer_eq := by
    rw [refuse]
    cases d.lookup k key <;> rfl
  total_keeperFatal := rfl
  total_eq_zero counter hne := by simp [refuse, Journal.total, hne.symm]
  lines_eq := rfl

/-! ### The moves of a release -/

/-- The depot without the entry of a key. -/
def takeOut (d : Depot R n) (k : Fin n) (key : String) : Depot R n :=
  d.withKeeper k ((d.keeper k).erase key)

/-- The depot with an entry for a key that has none. -/
def putBack (d : Depot R n) (k : Fin n) (key : String) (resource : R) : Depot R n :=
  d.withKeeper k ((d.keeper k).insert key resource)

section Moves

variable {d : Depot R n} {k : Fin n} {key : String}

/-- To take out the entry of a key that has none changes nothing. -/
theorem takeOut_of_none (h : d.lookup k key = none) : d.takeOut k key = d := by
  have hkept : (d.keeper k).kept.erase key = (d.keeper k).kept := by
    refine List.filter_eq_self.2 fun entry hentry => decide_eq_true ?_
    rintro rfl
    exact Table.lookup_eq_none_iff.1 h (List.mem_map_of_mem hentry)
  have hkeeper : (d.keeper k).erase key = d.keeper k := by rw [Keeper.erase, hkept]
  rw [takeOut, hkeeper]
  simp [withKeeper, Depot.keeper]

theorem keeper_putBack_takeOut (resource : R) (other : Fin n) :
    ((d.takeOut k key).putBack k key resource).keeper other =
      if other = k then ((d.keeper k).erase key).insert key resource else d.keeper other := by
  rw [putBack, takeOut, keeper_withKeeper, keeper_withKeeper, if_pos rfl, keeper_withKeeper]
  split <;> rfl

/-- An entry that was taken out and put back is there as before, with the others. -/
theorem sameContents_putBack (hkeyed : d.Keyed) {kept : R} (h : d.lookup k key = some kept) :
    d.SameContents ((d.takeOut k key).putBack k key kept) := by
  have hown : ((d.keeper k).kept.insert key kept).Perm (d.keeper k).kept := by
    refine Table.perm_of_lookup_eq (Table.nodup_keys_insert (hkeyed k) key kept) (hkeyed k) ?_
    intro other
    rw [Table.lookup_insert]
    split
    · next heq => rw [heq, ← h, Depot.lookup, Keeper.lookup]
    · rfl
  constructor
  case kept_perm =>
    intro other
    rw [keeper_putBack_takeOut]
    split
    · next heq =>
      subst heq
      exact hown
    · exact .refl _
  case info_eq | shouldBeHeld_eq =>
    intro other
    rw [keeper_putBack_takeOut]
    split
    · next heq =>
      subst heq
      rfl
    · rfl
  case held_eq | statuses_eq => rfl

variable [DecidableEq R]

/-- A request to release, one move after the other. The entry of the key is taken out, and compared
only then. If it is not that of the resource, it is put back, and the report is made once it is. -/
def releaseByMoves (describe : Depot R n → R → String) (d : Depot R n) (k : Fin n) (key : String)
    (resource : R) : Outcome (Depot R n) (Except Inconsistency R) :=
  match d.lookup k key with
  | some kept =>
    if kept = resource then
      { state := (d.takeOut k key).setHeld resource false
        answer := .ok kept
        journal := [.counted .release, .logged .resourceReleased] }
    else
      ((d.takeOut k key).putBack k key kept).refuse describe .release key (some kept) resource
  | none => (d.takeOut k key).refuse describe .release key none resource

/-- Made one after the other, the moves of a release come to the same as the release, as long as
descriptions do not tell the order of entries. -/
theorem releaseByMoves_alike {describe : Depot R n → R → String} (hkeyed : d.Keyed)
    (hdescribe : GoesByContents describe) (k : Fin n) (key : String) (resource : R) :
    (d.release describe k key resource).state.SameContents
        (d.releaseByMoves describe k key resource).state ∧
      (d.releaseByMoves describe k key resource).answer =
        (d.release describe k key resource).answer ∧
      (d.releaseByMoves describe k key resource).journal =
        (d.release describe k key resource).journal := by
  cases hlookup : d.lookup k key with
  | none =>
    have hmoves : d.releaseByMoves describe k key resource = d.release describe k key resource := by
      rw [releaseByMoves, release, hlookup, takeOut_of_none hlookup]
    rw [hmoves]
    exact ⟨.refl _, rfl, rfl⟩
  | some kept =>
    by_cases heq : kept = resource
    · have hmoves :
          d.releaseByMoves describe k key resource = d.release describe k key resource := by
        simp only [releaseByMoves, release, hlookup, heq, if_pos, takeOut]
      rw [hmoves]
      exact ⟨.refl _, rfl, rfl⟩
    · -- the entry is back when the resources are described
      have hsame := sameContents_putBack hkeyed hlookup
      simp only [releaseByMoves, release, hlookup, heq, if_false, refuse, hdescribe _ _ _ hsame,
        Option.map_some]
      exact ⟨hsame, trivial, trivial⟩

end Moves

/-! ### Harmless contradictions -/

variable [DecidableEq R]

/-- Take keepers and flags in any state, also one in which flags were changed from outside, and any
way to describe resources by that state. A request to hold or to release that fails leaves all as it
was. Its report has the request, and the descriptions of what was kept for the key and of what was
offered, as they were before it. One contradiction is counted and logged, and nothing else. The
moves of a release that fails come to that as well: what was taken out is back in time. -/
theorem contradiction_harmless (describe : Depot R n → R → String) (d : Depot R n) (k : Fin n)
    (key : String) (resource : R) :
    (∀ report, (d.hold describe k key resource).answer = .error report →
      Refused describe d .hold k key resource (d.hold describe k key resource)) ∧
    ∀ report, (d.release describe k key resource).answer = .error report →
      Refused describe d .release k key resource (d.release describe k key resource) ∧
        (d.Keyed → GoesByContents describe →
          let moves := d.releaseByMoves describe k key resource
          d.SameContents moves.state ∧
            moves.answer = (d.release describe k key resource).answer ∧
            moves.journal = (d.release describe k key resource).journal) := by
  constructor
  · intro report hreport
    have hpermits : ¬d.Permits ⟨.hold, k, key, resource⟩ := by
      intro hpermits
      obtain ⟨_, hok⟩ := hold_isOk_iff.2 hpermits
      exact nomatch hreport.symm.trans hok
    obtain ⟨hkept, hfree⟩ := not_or.1 hpermits
    have hheld : d.lookup k key = none → d.isHeld resource = true :=
      fun hnone => Bool.of_not_eq_false fun hflag => hfree ⟨hnone, hflag⟩
    rw [hold_refused hkept hheld]
    exact refused_refuse describe d .hold k key resource
  · intro report hreport
    have hkept : ¬d.lookup k key = some resource := by
      intro hkept
      rw [release_kept hkept] at hreport
      exact nomatch hreport
    have hrefused : Refused describe d .release k key resource
        (d.release describe k key resource) := by
      rw [release_refused hkept]
      exact refused_refuse describe d .release k key resource
    refine ⟨hrefused, fun hkeyed hdescribe => ?_⟩
    obtain ⟨hsame, hreports⟩ := releaseByMoves_alike hkeyed hdescribe k key resource
    rw [hrefused.state_eq] at hsame
    exact ⟨hsame, hreports⟩

/-- A pooled connection is kept although its flag was cleared from outside, and the flag of another
connection was set. That one can neither be held nor be released in place of the first, and each
report tells how much the keeper keeps. -/
theorem contradiction_harmless_behind_false_flags :
    let pooled : Connection 1 := ⟨2, some 0⟩
    let stray : Connection 1 := ⟨1, none⟩
    let d := (run Connection.describe (empty #v[.blank] (.empty 4 600 (by decide)))
      [.hold 0 "x" pooled, .setHeld pooled false, .setHeld stray true]).state
    let hold := d.hold Connection.describe 0 "y" stray
    let release := d.release Connection.describe 0 "x" stray
    let moves := d.releaseByMoves Connection.describe 0 "x" stray
    (hold.state = d ∧ hold.answer = .error
      ⟨.hold, "y", "none", "Conn \x7b id: 1, held: HeldFlag(true) \x7d"⟩) ∧
    (release.state = d ∧ release.answer = .error
      ⟨.release, "x", "Pooled \x7b id: 2, in_use: Some(1) \x7d",
        "Conn \x7b id: 1, held: HeldFlag(true) \x7d"⟩) ∧
    d.SameContents moves.state ∧ moves.answer = release.answer := by
  intro pooled stray d hold release moves
  have hfree : d.lookup 0 "y" = none := by decide +kernel
  have hkept : d.lookup 0 "x" = some pooled := by decide +kernel
  have hstray : Connection.describe d stray = "Conn \x7b id: 1, held: HeldFlag(true) \x7d" := by
    decide +kernel
  have hpooled : Connection.describe d pooled = "Pooled \x7b id: 2, in_use: Some(1) \x7d" := by
    decide +kernel
  have hholdFails : hold.answer = .error _ :=
    congrArg Outcome.answer (hold_refused (by simp [hfree]) fun _ => by decide +kernel)
  have hreleaseFails : release.answer = .error _ :=
    congrArg Outcome.answer (release_refused (by rw [hkept]; decide))
  have hheld := (contradiction_harmless Connection.describe d 0 "y" stray).1 _ hholdFails
  obtain ⟨hreleased, hmoves⟩ :=
    (contradiction_harmless Connection.describe d 0 "x" stray).2 _ hreleaseFails
  have hkeyed : d.Keyed :=
    Outcome.run_induction (fun _ command h => h.step _ command) (keyed_empty _ _) _
  obtain ⟨hsame, hanswer, -⟩ := hmoves hkeyed goesByContents_connection
  refine ⟨⟨hheld.state_eq, ?_⟩, ⟨hreleased.state_eq, ?_⟩, hsame, hanswer⟩
  · rw [hheld.answer_eq, hfree, hstray, Option.elim_none]
  · rw [hreleased.answer_eq, hkept, hstray, Option.elim_some, hpooled]

end Depot

end GlobalTransaction.Resource
