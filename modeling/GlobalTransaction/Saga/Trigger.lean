import GlobalTransaction.Saga.Policy
import GlobalTransaction.Saga.Terminator

/-!
# From failure to compensation

When forward execution has failed, or a run is taken up again after a crash, it is
decided whether there is something to undo. If so, those steps are stacked and the
run turns around. If not, the run ends.

## Main definitions

* `Saga.Decision` — what was decided
* `Saga.Trigger` — the state log, the policy and the terminator of a decision
* `Trigger.turnAround` — the context of a run that turns around
* `Trigger.fire` — the decision and its effect
-/

namespace GlobalTransaction.Saga

/-- What was decided about a run. -/
inductive Decision
  /-- It is compensated; so many steps were stacked. -/
  | compensating (queued : Nat)
  /-- There was nothing to undo, and it has ended. -/
  | ended
deriving DecidableEq

/-- What decides about runs. -/
structure Trigger (σ : Type) where
  stateLog : StateLog σ
  policy : Policy
  terminator : Terminator σ

namespace Trigger

variable {σ : Type}

/-- The context of a run that turns around, given the steps to undo. The captured failure becomes
the failure of the run. -/
def turnAround (c : Context) (steps : List Step) : Context :=
  { c with
    run := { c.run with
      exception := c.captured.or c.run.exception
      status := if isOpen c.run.status then some .unknown else c.run.status
      compensation := some .running }
    captured := none
    stack := some (c.stackOrEmpty.pushAll steps)
    triggerState := c.current }

/-- The history of a run: that of its record or, for a record without steps, that of the log. -/
def history (t : Trigger σ) (c : Context) (log : σ) : σ × Except String (List Step) :=
  -- a record made for recovery has no steps of its own
  if c.run.history.isEmpty then t.stateLog.history log c.run.id else (log, .ok c.run.history)

/-- Ends a run that has nothing to undo. -/
def finish (t : Trigger σ) (now : Timestamp) (c : Context) (log : σ) : Effect σ Decision :=
  let e := t.terminator.finish now c log
  match e.answer with
  | .error cause =>
    { context := e.context
      log := e.log
      answer := .error cause
      notices := e.notices
      journal := .logged .nothingToCompensate :: e.journal }
  | .ok () =>
    { context := { e.context with ended := true }
      log := e.log
      answer := .ok .ended
      notices := e.notices
      journal :=
        .logged .nothingToCompensate :: e.journal ++ [.counted .compensationSkipped] }

/-- Decides about a run. A run that has ended through this context is refused. -/
def fire (t : Trigger σ) (now : Timestamp) (c : Context) (log : σ) : Effect σ Decision :=
  if c.ended then { context := c, log, answer := .error (.alreadyEnded c.run.id) }
  else
    match t.history c log with
    | (log, .error cause) => { context := c, log, answer := .error (.store cause) }
    | (log, .ok history) =>
      match t.policy c history with
      -- nothing is left to undo
      | [] => t.finish now c log
      | s :: steps =>
        { context := turnAround c (s :: steps)
          log
          answer := .ok (.compensating (c.stackOrEmpty.countNew (s :: steps)))
          journal := [.counted .compensationTriggered, .logged .compensationTriggered] }

end Trigger

end GlobalTransaction.Saga
