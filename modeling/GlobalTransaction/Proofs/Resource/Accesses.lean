import GlobalTransaction.Proofs.Resource.Recency
import GlobalTransaction.Proofs.Runs
import Mathlib.Data.List.Induction

/-!
# Accesses to branches

What happens to a branch is told from the commands to a cache and their times alone: which of them
changed the branch last, and which accesses to it have followed each other since. A status stands
as long as any two of these accesses that follow each other meet some condition.

## Main definitions

* `Last` — in a history the last member with a property
* `Consecutive` — two members with a property, and none other between them
* `Timed` — a command and its time
* `Timed.changes`, `Timed.accesses` — what a command is to a branch
* `Clocked.history` — the commands of a run with their times
* `Stands` — a status is still the one of a branch

## Main results

* `last_append_iff`, `consecutive_append_iff` — what a further member adds
* `Clocked.history_induction` — what every command keeps of the past and the cache holds of runs
* `stands_append_iff` — what a further command is to a status that stands
* `exists_consecutive_iff` — a status stands until it is read
-/

set_option autoImplicit false

namespace GlobalTransaction.Resource.StatusCache

/-! ### Histories -/

section History

variable {α : Type} {p : α → Bool} {history : List α}

/-- The last member of a history that has a property, and what has come since. -/
structure Last (p : α → Bool) (history : List α) (e : α) (since : List α) : Prop where
  suffix : e :: since <:+ history
  holds : p e = true
  none_since : ∀ other ∈ since, p other = false

/-- Two members of a history that have a property, and between which no other member has it. -/
structure Consecutive (p : α → Bool) (history : List α) (e : α) (between : List α) (later : α) :
    Prop where
  part : e :: between ++ [later] <:+: history
  holds : p e = true
  holds_later : p later = true
  none_between : ∀ other ∈ between, p other = false

theorem not_last_nil {e : α} {since : List α} : ¬ Last p [] e since :=
  fun h => nomatch List.suffix_nil.1 h.suffix

theorem not_consecutive_nil {e later : α} {between : List α} :
    ¬ Consecutive p [] e between later :=
  fun h => nomatch List.infix_nil.1 h.part

theorem last_append_iff {x e : α} {since : List α} :
    Last p (history ++ [x]) e since ↔
      p x = true ∧ e = x ∧ since = [] ∨
        p x = false ∧ ∃ before, since = before ++ [x] ∧ Last p history e before := by
  constructor
  · rintro ⟨hsuffix, hholds, hnone⟩
    rcases List.suffix_concat_iff.1 hsuffix with hnil | ⟨whole, heq, hbefore⟩
    · exact nomatch hnil
    · cases whole with
      | nil =>
        obtain ⟨rfl, rfl⟩ := List.cons.inj heq
        exact .inl ⟨hholds, rfl, rfl⟩
      | cons first before =>
        obtain ⟨rfl, rfl⟩ := List.cons.inj heq
        refine .inr ⟨hnone x (by simp), before, rfl, hbefore, hholds, fun other hother => ?_⟩
        exact hnone other (List.mem_append_left [x] hother)
  · rintro (⟨hx, rfl, rfl⟩ | ⟨hx, before, rfl, hlast⟩)
    · exact ⟨List.suffix_append history [e], hx, fun _ hother => nomatch hother⟩
    · refine ⟨List.suffix_concat_iff.2 (.inr ⟨e :: before, rfl, hlast.suffix⟩), hlast.holds, ?_⟩
      intro other hother
      rcases List.mem_append.1 hother with hbefore | hlater
      · exact hlast.none_since other hbefore
      · rw [List.mem_singleton.1 hlater]
        exact hx

theorem consecutive_append_iff {x e later : α} {between : List α} :
    Consecutive p (history ++ [x]) e between later ↔
      Consecutive p history e between later ∨
        p x = true ∧ later = x ∧ Last p history e between := by
  constructor
  · rintro ⟨hpart, hholds, hlater, hnone⟩
    rcases List.infix_concat_iff.1 hpart with hsuffix | hbefore
    · rcases List.suffix_concat_iff.1 hsuffix with hnil | ⟨front, heq, hfront⟩
      · exact nomatch hnil
      · obtain ⟨rfl, hx⟩ := List.append_inj' heq rfl
        obtain rfl := List.singleton_inj.1 hx
        exact .inr ⟨hlater, rfl, hfront, hholds, hnone⟩
    · exact .inl ⟨hbefore, hholds, hlater, hnone⟩
  · rintro (⟨hpart, hholds, hlater, hnone⟩ | ⟨hx, rfl, hlast⟩)
    · exact ⟨hpart.trans (List.prefix_append history [x]).isInfix, hholds, hlater, hnone⟩
    · refine ⟨List.IsSuffix.isInfix ?_, hlast.holds, hx, hlast.none_since⟩
      exact List.suffix_concat_iff.2 (.inr ⟨e :: between, rfl, hlast.suffix⟩)

theorem last_singleton_iff {x e : α} {since : List α} :
    Last p [x] e since ↔ p x = true ∧ e = x ∧ since = [] := by
  rw [← List.nil_append [x], last_append_iff]
  constructor
  · rintro (hhere | ⟨-, before, -, hnone⟩)
    · exact hhere
    · exact absurd hnone not_last_nil
  · exact .inl

theorem not_consecutive_singleton {x e later : α} {between : List α} :
    ¬ Consecutive p [x] e between later := by
  rw [← List.nil_append [x], consecutive_append_iff]
  rintro (hnone | ⟨-, -, hnone⟩)
  · exact not_consecutive_nil hnone
  · exact not_last_nil hnone

theorem Last.unique {e e' : α} {since since' : List α} (h : Last p history e since)
    (h' : Last p history e' since') : e = e' ∧ since = since' := by
  induction history using List.reverseRecOn generalizing since since' with
  | nil => exact absurd h not_last_nil
  | append_singleton history x ih =>
    rcases last_append_iff.1 h with ⟨hx, rfl, rfl⟩ | ⟨hx, before, rfl, hbefore⟩
    · rcases last_append_iff.1 h' with ⟨-, rfl, rfl⟩ | ⟨hnot, -⟩
      · exact ⟨rfl, rfl⟩
      · exact nomatch hx.symm.trans hnot
    · rcases last_append_iff.1 h' with ⟨hholds, -⟩ | ⟨-, before', rfl, hbefore'⟩
      · exact nomatch hholds.symm.trans hx
      · obtain ⟨rfl, rfl⟩ := ih hbefore hbefore'
        exact ⟨rfl, rfl⟩

/-- If some member of a history has a property, then one is the last to have it. -/
theorem exists_last {e : α} (he : e ∈ history) (hp : p e = true) :
    ∃ last since, Last p history last since := by
  induction history using List.reverseRecOn with
  | nil => exact nomatch he
  | append_singleton history x ih =>
    cases hx : p x with
    | true => exact ⟨x, [], last_append_iff.2 (.inl ⟨hx, rfl, rfl⟩)⟩
    | false =>
      have hearlier : e ∈ history := by
        rcases List.mem_append.1 he with hearlier | hlater
        · exact hearlier
        · rw [List.mem_singleton.1 hlater, hx] at hp
          exact nomatch hp
      obtain ⟨last, since, hlast⟩ := ih hearlier
      exact ⟨last, since ++ [x], last_append_iff.2 (.inr ⟨hx, since, rfl, hlast⟩)⟩

end History

/-! ### Commands with their times -/

/-- A command that was carried out, and when. -/
structure Timed where
  /-- The time in milliseconds. -/
  time : Nat
  command : Command
deriving DecidableEq

/-- The branch that a command reads or writes. -/
def Command.accessed? : Command → Option String
  | .put id _ | .get id => some id
  | .invalidate _ | .purge | .wait _ => none

/-- The branch whose status a command writes or forgets. -/
def Command.changed? : Command → Option String
  | .put id _ | .invalidate id => some id
  | .get _ | .purge | .wait _ => none

/-- The command is an access to a branch, be it read or written. -/
def Timed.accesses (id : String) (e : Timed) : Bool := decide (e.command.accessed? = some id)

/-- The command writes the status of a branch or forgets it. -/
def Timed.changes (id : String) (e : Timed) : Bool := decide (e.command.changed? = some id)

/-- The commands of a run with the times on the clock. -/
def Clocked.history (start : Clocked) (commands : List Command) : List Timed :=
  Outcome.notes step (fun s command => ⟨s.now, command⟩) start commands

/-- A fact about the past of a new cache and its state that every command keeps holds behind every
run. The commands find the entries in their order. -/
theorem Clocked.history_induction {P : List Timed → Clocked → Prop} {capacity idle now : Nat}
    {hpos : 0 < capacity} (h : P [] ⟨.empty capacity idle hpos, now⟩)
    (hstep : ∀ past s command, s.Ranked → P past s →
      P (past ++ [⟨s.now, command⟩]) (s.step command).state) (commands : List Command) :
    let start : Clocked := ⟨.empty capacity idle hpos, now⟩
    P (start.history commands) (run start commands).state := by
  intro start
  have hrun : (run start commands).state.Ranked ∧
      P (start.history commands) (run start commands).state :=
    Outcome.run_notes_induction (P := fun past s => s.Ranked ∧ P past s)
      ⟨ranked_empty capacity idle now hpos, h⟩
      (fun past s command _ hs => ⟨hs.1.step command, hstep past s command hs.1 hs.2⟩)
      (Outcome.admits_all start commands)
  exact hrun.2

/-! ### Statuses that stand -/

variable {gap : Timed → List Timed → Timed → Prop} {past : List Timed} {id : String}
variable {status : Branch.Status}

/-- The latest change of a branch has written a status, and of the accesses to the branch since
then any two that follow each other meet a condition, which may speak of what came between them.
The last access is given, and what has come since. -/
def Stands (gap : Timed → List Timed → Timed → Prop) (past : List Timed) (id : String)
    (status : Branch.Status) (last : Timed) (since : List Timed) : Prop :=
  ∃ time after, Last (Timed.changes id) past ⟨time, .put id status⟩ after ∧
    (∀ e between later,
      Consecutive (Timed.accesses id) (⟨time, .put id status⟩ :: after) e between later →
        gap e between later) ∧
    Last (Timed.accesses id) (⟨time, .put id status⟩ :: after) last since

theorem accesses_put (id : String) (status : Branch.Status) (time : Nat) :
    Timed.accesses id ⟨time, .put id status⟩ = true :=
  decide_eq_true rfl

/-- An access that changes nothing reads. -/
theorem Timed.command_eq_get {e : Timed} (haccesses : e.accesses id = true)
    (hchanges : e.changes id = false) : e.command = .get id := by
  rw [accesses, decide_eq_true_eq] at haccesses
  rw [changes, decide_eq_false_iff_not] at hchanges
  obtain ⟨time, command⟩ := e
  cases command with
  | put other status => exact absurd haccesses hchanges
  | get other => exact congrArg Command.get (Option.some.inj haccesses)
  | invalidate | purge | wait => exact nomatch haccesses

/-- A status stands from the command that has written it. -/
theorem stands_append_put (past : List Timed) (time : Nat) :
    Stands gap (past ++ [⟨time, .put id status⟩]) id status ⟨time, .put id status⟩ [] := by
  have hchanges : Timed.changes id ⟨time, .put id status⟩ = true := decide_eq_true rfl
  refine ⟨time, [], last_append_iff.2 (.inl ⟨hchanges, rfl, rfl⟩), ?_, ?_⟩
  · exact fun e between later hconsecutive => absurd hconsecutive not_consecutive_singleton
  · exact last_singleton_iff.2 ⟨accesses_put id status time, rfl, rfl⟩

/-- A status that stood before stands behind a further command that leaves it, if an access to the
branch meets the condition together with the last one before. -/
theorem stands_append_of_keeps {x last : Timed} {since after : List Timed} {time : Nat}
    (hchange : Last (Timed.changes id) past ⟨time, .put id status⟩ after)
    (hgaps : ∀ e between later,
      Consecutive (Timed.accesses id) (⟨time, .put id status⟩ :: after) e between later →
        gap e between later)
    (hkeeps : x.changes id = false)
    (hgap : ∀ before between, x.accesses id = true →
      Last (Timed.accesses id) (⟨time, .put id status⟩ :: after) before between →
        gap before between x)
    (hlast : Last (Timed.accesses id) (⟨time, .put id status⟩ :: after ++ [x]) last since) :
    Stands gap (past ++ [x]) id status last since := by
  refine ⟨time, after ++ [x], last_append_iff.2 (.inr ⟨hkeeps, after, rfl, hchange⟩), ?_, hlast⟩
  rw [← List.cons_append]
  intro e between later hconsecutive
  rcases consecutive_append_iff.1 hconsecutive with hearlier | ⟨haccesses, rfl, hprevious⟩
  · exact hgaps e between later hearlier
  · exact hgap e between haccesses hprevious

/-- A status stands behind a further command if the command has written it, or if it stood before.
In that case the command is the next access to the branch, which has to meet the condition together
with the last one, or it is no business of the branch. -/
theorem stands_append_iff {x last : Timed} {since : List Timed} :
    Stands gap (past ++ [x]) id status last since ↔
      (x.command = .put id status ∧ last = x ∧ since = []) ∨
      (x.command = .get id ∧ last = x ∧ since = [] ∧
        ∃ before between, Stands gap past id status before between ∧ gap before between x) ∨
      (x.accesses id = false ∧ x.changes id = false ∧
        ∃ before, since = before ++ [x] ∧ Stands gap past id status last before) := by
  constructor
  · rintro ⟨time, after, hchange, hgaps, hlast⟩
    rcases last_append_iff.1 hchange with ⟨-, hwrite, rfl⟩ | ⟨hkeeps, after, rfl, hearlier⟩
    · refine .inl ⟨congrArg Timed.command hwrite.symm, ?_⟩
      obtain ⟨-, rfl, rfl⟩ := last_singleton_iff.1 hlast
      exact ⟨hwrite, rfl⟩
    · rw [← List.cons_append] at hgaps hlast
      have hbefore : ∀ e between later, Consecutive (Timed.accesses id)
          (⟨time, .put id status⟩ :: after) e between later → gap e between later :=
        fun e between later h => hgaps e between later (consecutive_append_iff.2 (.inl h))
      rcases last_append_iff.1 hlast with ⟨haccesses, rfl, rfl⟩ | ⟨hnot, before, rfl, hprevious⟩
      · obtain ⟨before, between, hprevious⟩ :=
          exists_last List.mem_cons_self (accesses_put id status time)
        have hgap := hgaps before between last
          (consecutive_append_iff.2 (.inr ⟨haccesses, rfl, hprevious⟩))
        exact .inr (.inl ⟨Timed.command_eq_get haccesses hkeeps, rfl, rfl, before, between,
          ⟨time, after, hearlier, hbefore, hprevious⟩, hgap⟩)
      · exact .inr (.inr ⟨hnot, hkeeps, before, rfl, time, after, hearlier, hbefore, hprevious⟩)
  · rintro (⟨hwrite, rfl, rfl⟩ | ⟨hread, rfl, rfl, before, between, hstands, hgap⟩ |
      ⟨hnot, hkeeps, before, rfl, hstands⟩)
    · obtain ⟨time, command⟩ := last
      obtain rfl : command = .put id status := hwrite
      exact stands_append_put past time
    · have haccesses : last.accesses id = true := decide_eq_true (by rw [hread]; rfl)
      have hkeeps : last.changes id = false := decide_eq_false (by rw [hread]; exact nofun)
      obtain ⟨time, after, hchange, hgaps, hprevious⟩ := hstands
      refine stands_append_of_keeps hchange hgaps hkeeps ?_
        (last_append_iff.2 (.inl ⟨haccesses, rfl, rfl⟩))
      intro other between' _ hother
      obtain ⟨rfl, rfl⟩ := hother.unique hprevious
      exact hgap
    · obtain ⟨time, after, hchange, hgaps, hlast⟩ := hstands
      refine stands_append_of_keeps hchange hgaps hkeeps ?_
        (last_append_iff.2 (.inr ⟨hnot, before, rfl, hlast⟩))
      intro other between haccesses
      exact nomatch haccesses.symm.trans hnot

/-- To say that a status stands until it is read is to say that it was written by the latest change
of the branch, and that all accesses from then on to this reading meet the condition. -/
theorem exists_consecutive_iff {read : Timed} (hread : read.accesses id = true) :
    (∃ time after, Last (Timed.changes id) past ⟨time, .put id status⟩ after ∧
      ∀ e between later,
        Consecutive (Timed.accesses id) (⟨time, .put id status⟩ :: after ++ [read])
          e between later → gap e between later) ↔
      ∃ last since, Stands gap past id status last since ∧ gap last since read := by
  constructor
  · rintro ⟨time, after, hchange, hgaps⟩
    obtain ⟨last, since, hlast⟩ := exists_last List.mem_cons_self (accesses_put id status time)
    refine ⟨last, since, ⟨time, after, hchange, fun e between later hconsecutive => ?_, hlast⟩, ?_⟩
    · exact hgaps e between later (consecutive_append_iff.2 (.inl hconsecutive))
    · exact hgaps last since read (consecutive_append_iff.2 (.inr ⟨hread, rfl, hlast⟩))
  · rintro ⟨last, since, ⟨time, after, hchange, hgaps, hlast⟩, hgap⟩
    refine ⟨time, after, hchange, fun e between later hconsecutive => ?_⟩
    rcases consecutive_append_iff.1 hconsecutive with hearlier | ⟨-, rfl, hother⟩
    · exact hgaps e between later hearlier
    · obtain ⟨rfl, rfl⟩ := hother.unique hlast
      exact hgap

end GlobalTransaction.Resource.StatusCache
