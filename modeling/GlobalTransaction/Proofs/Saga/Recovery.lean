import GlobalTransaction.Proofs.Runs
import GlobalTransaction.Proofs.Saga.Decision
import GlobalTransaction.Proofs.Saga.Stack

/-!
# Recovery reaches the same plan

When the work on a run is broken off, its context is gone. What is left are the steps in the state
log and a header, which is a record of the run without steps. A decision from that header reads the
same history as the live one did, so it comes to the same plan. It finds another status, though:
the live decision has given up the way forward. That happens once, and no recovery changes the
status any more.

## Main definitions

* `Context.Fresh` — a context that has just been taken up
* `plan` — the steps that a history leaves to undo, stacked
* `Recovery`, `Recovery.step` — what a recovery finds, and recoveries that follow each other
* `Recovery.Resumes` — two decisions come to one plan

## Main results

* `Trigger.fire_cases_of_fresh` — what is decided about a fresh context, by its history alone
* `Recovery.step_of_needed` — what a recovery decides, and what it leaves to the next one
* `Recovery.resumes_of_mem_replies` — recoveries that follow each other come to one plan
* `Recovery.same_plan` — every recovery decides as the live context did
-/

set_option autoImplicit false

namespace GlobalTransaction.Saga

open CompensationStack (newSteps)

/-- The context has just been taken up: nothing waits to be undone, and the run has not ended. -/
structure Context.Fresh (c : Context) : Prop where
  not_ended : c.ended = false
  stack_eq : c.stackOrEmpty = .empty

theorem Context.fresh_ofRun (run : Run) : (ofRun run).Fresh := ⟨rfl, rfl⟩

/-- The steps that a history leaves to undo, the last one on top. -/
def plan (history : List Step) : CompensationStack :=
  CompensationStack.empty.pushAll (history.filter Step.needsCompensation)

theorem drain_plan (history : List Step) :
    (plan history).drain =
      ((newSteps [] (history.filter Step.needsCompensation)).reverse, .empty) := by
  rw [plan, (CompensationStack.sound_empty.pushAll _).drain_eq, CompensationStack.steps_pushAll]
  exact congrArg (·, CompensationStack.empty) (List.append_nil _)

/-- Steps that are recorded for a run one after the other are read in that order. -/
theorem MemoryLog.history_foldl_record (log : MemoryLog) (id : InstanceId) (steps : List Step) :
    (steps.foldl (fun log s => log.record id s) log).history id = log.history id ++ steps := by
  induction steps generalizing log with
  | nil => exact (List.append_nil _).symm
  | cons s steps ih =>
    rw [List.foldl_cons, ih, MemoryLog.history_record, if_pos rfl, List.append_assoc]
    rfl

namespace Trigger

/-! ### Decisions about fresh contexts -/

section Fresh

variable {listeners : Nat} {c : Context} {log : MemoryLog} {history : List Step}

/-- What is decided about a fresh context depends on the history that is read for it and on
nothing else. -/
theorem fire_cases_of_fresh (hfresh : c.Fresh)
    (hread : (inMemory listeners).history c log = (log, .ok history)) (now : Timestamp) :
    let e := (inMemory listeners).fire now c log
    ((∃ s ∈ history, s.needsCompensation) ∧
        e.answer = .ok (.compensating (plan history).size) ∧
        e.context = turnAround c (history.filter Step.needsCompensation) ∧
        e.context.stackOrEmpty = plan history) ∨
      ((∀ s ∈ history, s.needsCompensation = false) ∧
        e.answer = .ok .ended ∧
        e.context.run = settle now c.run ∧
        e.log = log.recordFinished (settle now c.run)) := by
  have hfired := (inMemory listeners).fired now c log
  intro e
  change Fired _ _ _ _ e at hfired
  generalize e = e at hfired ⊢
  cases hfired with
  | refused hended => exact nomatch hended.symm.trans hfresh.not_ended
  | unread _ _ _ hread' => exact nomatch hread.symm.trans hread'
  | unwritten _ _ _ _ _ _ _ hwrite => exact nomatch hwrite
  | ended _ log' history' log'' hread' hnone hwrite =>
    obtain ⟨rfl, hsame⟩ := Prod.mk.inj (hread.symm.trans hread')
    obtain rfl := Except.ok.inj hsame
    obtain ⟨rfl, -⟩ := Prod.mk.inj hwrite
    refine .inr ⟨fun s hs => ?_, rfl, rfl, rfl⟩
    simpa using List.filter_eq_nil_iff.1 hnone s hs
  | compensating _ log' history' hread' hsome =>
    obtain ⟨rfl, hsame⟩ := Prod.mk.inj (hread.symm.trans hread')
    obtain rfl := Except.ok.inj hsame
    obtain ⟨s, hs⟩ := List.exists_mem_of_ne_nil _ hsome
    have hstack : c.stackOrEmpty.pushAll (history.filter Step.needsCompensation) =
        plan history := by rw [hfresh.stack_eq, plan]
    have hcount : c.stackOrEmpty.countNew (history.filter Step.needsCompensation) =
        (plan history).size := by
      rw [CompensationStack.countNew, hstack, hfresh.stack_eq]
      rfl
    refine .inl ⟨⟨s, List.mem_filter.1 hs⟩, ?_, rfl, hstack⟩
    exact congrArg (fun n => Except.ok (Decision.compensating n)) hcount

end Fresh

/-- The history of a record without steps is that of the log. -/
theorem history_inMemory_of_eq_nil {c : Context} (hnone : c.run.history = []) (listeners : Nat)
    (log : MemoryLog) :
    (inMemory listeners).history c log = (log, .ok (log.history c.run.id)) :=
  if_pos (by rw [hnone]; rfl)

end Trigger

/-- The final status depends on the status and on whether the run has failed. -/
theorem status_settle_congr {run other : Run} (hstatus : run.status = other.status)
    (hexception : run.exception = other.exception) (now later : Timestamp) :
    (settle now run).status = (settle later other).status := by
  rw [settle, settle, hstatus, hexception]

/-! ### Recoveries -/

/-- What a recovery finds: a header of the run, a state log, and the time. -/
structure Recovery where
  header : Run
  log : MemoryLog
  now : Timestamp

namespace Recovery

/-- The context of a run that is built from a header. It has no steps. Whatever else the header
says is taken over. -/
def context (r : Recovery) (id : InstanceId) (status : Option Status) : Context :=
  .ofRun { r.header with id, history := [], status }

/-- A recovery of a run. It leaves the status to the next one, and nothing else. -/
def step (t : Trigger MemoryLog) (id : InstanceId) (status : Option Status) (r : Recovery) :
    Outcome (Option Status) (Effect MemoryLog Decision) :=
  let e := t.fire r.now (r.context id status) r.log
  { state := e.context.run.status, answer := e, journal := e.journal }

/-- One decision to compensate comes to the plan of another, and to its status. -/
structure Resumes (e live : Effect MemoryLog Decision) : Prop where
  answer_eq : e.answer = live.answer
  drain_eq : e.context.stackOrEmpty.drain = live.context.stackOrEmpty.drain
  status_eq : e.context.run.status = live.context.run.status
  compensation_eq : e.context.run.compensation = some .running

section Step

variable {listeners : Nat} {id : InstanceId} {status : Option Status} {r : Recovery}

theorem fresh_context (r : Recovery) (id : InstanceId) (status : Option Status) :
    (r.context id status).Fresh :=
  Context.fresh_ofRun _

/-- A recovery decides about the history in the log. -/
theorem history_context (listeners : Nat) (r : Recovery) (id : InstanceId)
    (status : Option Status) :
    (Trigger.inMemory listeners).history (r.context id status) r.log =
      (r.log, .ok (r.log.history id)) :=
  Trigger.history_inMemory_of_eq_nil rfl listeners r.log

/-- A recovery with something to undo comes to the plan of the history in the log, and leaves a
status that does not wait for an outcome as it was. -/
theorem step_of_needed (hneeded : ∃ s ∈ r.log.history id, s.needsCompensation)
    (hclosed : isOpen status = false) :
    let o := step (.inMemory listeners) id status r
    o.state = status ∧
      o.answer.answer = .ok (.compensating (plan (r.log.history id)).size) ∧
      o.answer.context.stackOrEmpty = plan (r.log.history id) ∧
      o.answer.context.run.status = status ∧
      o.answer.context.run.compensation = some .running := by
  obtain ⟨-, hanswer, hcontext, hstack⟩ | ⟨hnone, -⟩ :=
    Trigger.fire_cases_of_fresh (r.fresh_context id status)
      (r.history_context listeners id status) r.now
  · have hstatus : ((Trigger.inMemory listeners).fire r.now (r.context id status)
        r.log).context.run.status = status := by
      rw [hcontext]
      exact Trigger.status_turnAround_of_closed hclosed _
    refine ⟨hstatus, hanswer, hstack, hstatus, ?_⟩
    rw [step, hcontext]
    rfl
  · obtain ⟨s, hs, hneeds⟩ := hneeded
    exact absurd (hnone s hs) (by simp [hneeds])

/-- A recovery with nothing to undo ends the run. -/
theorem fire_of_none_needed (hnone : ∀ s ∈ r.log.history id, s.needsCompensation = false) :
    let e := (Trigger.inMemory listeners).fire r.now (r.context id status) r.log
    e.answer = .ok .ended ∧
      e.context.run = settle r.now (r.context id status).run ∧
      e.log.finished id = some e.context.run := by
  obtain ⟨⟨s, hs, hneeds⟩, -⟩ | ⟨-, hanswer, hrun, hlog⟩ :=
    Trigger.fire_cases_of_fresh (r.fresh_context id status)
      (r.history_context listeners id status) r.now
  · exact absurd (hnone s hs) (by simp [hneeds])
  · refine ⟨hanswer, hrun, ?_⟩
    rw [hlog, hrun, MemoryLog.finished_recordFinished]
    exact if_pos rfl

/-- Recoveries that follow each other all come to the plan of an earlier decision, the status of
which waits for no outcome. -/
theorem resumes_of_mem_replies {history : List Step} {live : Effect MemoryLog Decision}
    (hneeded : ∃ s ∈ history, s.needsCompensation)
    (hanswer : live.answer = .ok (.compensating (plan history).size))
    (hstack : live.context.stackOrEmpty = plan history)
    (hclosed : isOpen live.context.run.status = false) {recoveries : List Recovery}
    (hlogs : ∀ r ∈ recoveries, r.log.history id = history) :
    ∀ reply ∈ Outcome.replies (step (.inMemory listeners) id) live.context.run.status recoveries,
      Resumes reply.2 live := by
  have hadmits : Outcome.Admits (step (.inMemory listeners) id)
      (fun _ r => r.log.history id = history) live.context.run.status recoveries :=
    .of_forall_mem hlogs _
  -- each recovery leaves the status of the earlier decision to the next one
  refine (Outcome.run_replies_induction (P := fun past status =>
    (∀ reply ∈ past, Resumes reply.2 live) ∧ status = live.context.run.status)
    ⟨List.forall_mem_nil _, rfl⟩ ?_ hadmits).1
  rintro past status r rfl ⟨hpast, rfl⟩
  obtain ⟨hstate, hagain, hsame, hstatus, hcompensation⟩ :=
    step_of_needed hneeded hclosed
  refine ⟨List.forall_mem_append.2 ⟨hpast, List.forall_mem_singleton.2 ?_⟩, hstate⟩
  exact ⟨hagain.trans hanswer.symm, congrArg _ (hsame.trans hstack.symm), hstatus, hcompensation⟩

end Step

/-- Let a run with steps be decided about in a fresh context. If it turns around, then all
recoveries come to the same plan, however many follow each other: each builds its context from a
header with the status that the one before has left, and finds the steps in a log. If the run ends,
then a recovery with the same status and failure ends it with the same final status. -/
theorem same_plan (listeners : Nat) {c : Context} (hfresh : c.Fresh) (hsteps : c.run.history ≠ [])
    (now : Timestamp) (log : MemoryLog) :
    let t := Trigger.inMemory listeners
    let live := t.fire now c log
    (live.answer = .ok (.compensating (plan c.run.history).size) ∧
        live.context.stackOrEmpty.drain =
          ((newSteps [] (c.run.history.filter Step.needsCompensation)).reverse, .empty) ∧
        ∀ recoveries : List Recovery,
          (∀ r ∈ recoveries, r.log.history c.run.id = c.run.history) →
          ∀ reply ∈ Outcome.replies (step t c.run.id) live.context.run.status recoveries,
            Resumes reply.2 live) ∨
      (live.answer = .ok .ended ∧
        ∀ r : Recovery, r.log.history c.run.id = c.run.history →
          r.header.exception = c.run.exception →
          let e := t.fire r.now (r.context c.run.id c.run.status) r.log
          e.answer = .ok .ended ∧
            e.context.run.status = live.context.run.status ∧
            e.log.finished c.run.id = some e.context.run) := by
  intro t live
  obtain ⟨hneeded, hanswer, hcontext, hstack⟩ | ⟨hnone, hanswer, hrun, -⟩ :=
    Trigger.fire_cases_of_fresh hfresh (Trigger.history_of_ne_nil hsteps log) now
  · have hdrain : live.context.stackOrEmpty.drain = _ :=
      (congrArg CompensationStack.drain hstack).trans (drain_plan c.run.history)
    refine .inl ⟨hanswer, hdrain, fun recoveries hlogs => ?_⟩
    have hclosed : isOpen live.context.run.status = false := by
      rw [hcontext]
      exact Trigger.isOpen_status_turnAround c _
    exact resumes_of_mem_replies hneeded hanswer hstack hclosed hlogs
  · refine .inr ⟨hanswer, fun r hlog hexception => ?_⟩
    rw [← hlog] at hnone
    obtain ⟨hended, hsettled, hfinished⟩ := fire_of_none_needed hnone
    refine ⟨hended, ?_, hfinished⟩
    rw [hsettled, hrun]
    have hstart : (r.context c.run.id c.run.status).run.status = c.run.status := rfl
    exact status_settle_congr hstart hexception r.now now

/-- A run that was broken off with a captured failure. One of its steps was executed twice, and one
cannot be undone. -/
def interrupted : Context :=
  let run := Run.start ⟨.replicate 16 7⟩ "transfer" (.ofUnixMillis 0)
  let debit := Step.compensable "A" "debit" "credit" (.ofUnixMillis 0)
  let audit := Step.ofKind "B" "audit" .scriptTask .succeeded (.ofUnixMillis 1)
  let deposit := Step.compensable "C" "deposit" "withdraw" (.ofUnixMillis 2)
  let history := [debit, audit, deposit, debit]
  { Context.ofRun { run with history, status := some .running } with
    captured := some ⟨none, "refused"⟩ }

/-- Two recoveries from bare headers come to the plan of a run that was interrupted. -/
theorem same_plan_behind_two_crashes :
    let c := interrupted
    let log := c.run.history.foldl (fun log s => log.record c.run.id s) MemoryLog.empty
    let header := Run.start c.run.id "transfer" (.ofUnixMillis 0)
    let recoveries : List Recovery :=
      [⟨header, log, .ofUnixMillis 7⟩, ⟨header, log, .ofUnixMillis 9⟩]
    let live := (Trigger.inMemory 1).fire (.ofUnixMillis 5) c log
    (∀ r ∈ recoveries, r.log.history c.run.id = c.run.history) ∧
      live.answer = .ok (.compensating 2) ∧ live.context.run.status = some .unknown ∧
      ∀ reply ∈ Outcome.replies (step (.inMemory 1) c.run.id) (some .unknown) recoveries,
        Resumes reply.2 live := by
  intro c log header recoveries live
  have hlog : log.history c.run.id = c.run.history := MemoryLog.history_foldl_record .empty _ _
  have hlogs : ∀ r ∈ recoveries, r.log.history c.run.id = c.run.history :=
    List.forall_mem_cons.2 ⟨hlog, List.forall_mem_singleton.2 hlog⟩
  obtain ⟨-, -, hagain⟩ | ⟨hended, -⟩ :=
    same_plan 1 (c := c) ⟨rfl, rfl⟩ (List.cons_ne_nil _ _) (.ofUnixMillis 5) log
  · exact ⟨hlogs, rfl, rfl, hagain recoveries hlogs⟩
  · exact nomatch hended

end Recovery

end GlobalTransaction.Saga
