import GlobalTransaction.Saga.Trigger

/-!
# How decisions come about

A decision about a run can come out in five ways. What holds of every decision is proved from
them, without a look at how the trigger and the terminator work together.

## Main definitions

* `Trigger.Fired` — the ways in which a decision comes out, with their effects
* `Trigger.onLog` — a trigger that reads and writes one and the same log
* `Trigger.inMemory` — the usual way to decide, over a log in memory

## Main results

* `Trigger.fired` — every decision comes out in one of them
* `Trigger.fire_of_ended`, `fire_of_unread`, `fire_of_nothing_left`, `fire_of_steps_left` — what
  decides between them
* `Trigger.isOpen_status_turnAround`, `Trigger.status_turnAround_of_closed` — the status of a run
  that turns around
-/

set_option autoImplicit false

namespace GlobalTransaction.Saga.Trigger

variable {σ : Type}

/-! ### Which way a decision takes -/

section Ways

variable {t : Trigger σ} {c : Context} {log log' : σ} {history : List Step}

theorem fire_of_ended (hended : c.ended = true) (t : Trigger σ) (now : Timestamp) (log : σ) :
    t.fire now c log = { context := c, log, answer := .error (.alreadyEnded c.run.id) } :=
  if_pos hended

theorem fire_of_unread (hopen : c.ended = false) {cause : String}
    (hread : t.history c log = (log', .error cause)) (now : Timestamp) :
    t.fire now c log = { context := c, log := log', answer := .error (.store cause) } := by
  rw [fire, hopen, if_neg Bool.false_ne_true, hread]

theorem fire_of_nothing_left (hopen : c.ended = false)
    (hread : t.history c log = (log', .ok history)) (hnone : t.policy c history = [])
    (now : Timestamp) : t.fire now c log = t.finish now c log' := by
  rw [fire, hopen, if_neg Bool.false_ne_true, hread]
  dsimp only
  rw [hnone]

theorem fire_of_steps_left (hopen : c.ended = false)
    (hread : t.history c log = (log', .ok history)) {s : Step} {steps : List Step}
    (hsteps : t.policy c history = s :: steps) (now : Timestamp) :
    t.fire now c log =
      { context := turnAround c (s :: steps)
        log := log'
        answer := .ok (.compensating (c.stackOrEmpty.countNew (s :: steps)))
        journal := [.counted .compensationTriggered, .logged .compensationTriggered] } := by
  rw [fire, hopen, if_neg Bool.false_ne_true, hread]
  dsimp only
  rw [hsteps]

end Ways

/-! ### The ways in which a decision comes out -/

/-- The effects that a decision about a run can have. -/
inductive Fired (t : Trigger σ) (now : Timestamp) (c : Context) (log : σ) :
    Effect σ Decision → Prop
  -- the run has ended, and nothing is read or written
  | refused (hended : c.ended = true) :
      Fired t now c log { context := c, log, answer := .error (.alreadyEnded c.run.id) }
  | unread (hopen : c.ended = false) (log' : σ) (cause : String)
      (hread : t.history c log = (log', .error cause)) :
      Fired t now c log { context := c, log := log', answer := .error (.store cause) }
  -- the record is settled before it is written, so the context keeps it when writing fails
  | unwritten (hopen : c.ended = false) (log' : σ) (history : List Step) (log'' : σ)
      (cause : String) (hread : t.history c log = (log', .ok history))
      (hnone : t.policy c history = [])
      (hwrite : t.terminator.stateLog.recordFinished log' (settle now c.run) =
        (log'', .error cause)) :
      Fired t now c log
        { context := { c with run := settle now c.run }
          log := log''
          answer := .error (.store cause)
          journal := [.logged .nothingToCompensate] }
  | ended (hopen : c.ended = false) (log' : σ) (history : List Step) (log'' : σ)
      (hread : t.history c log = (log', .ok history))
      (hnone : t.policy c history = [])
      (hwrite : t.terminator.stateLog.recordFinished log' (settle now c.run) = (log'', .ok ())) :
      Fired t now c log
        { context := { c with run := settle now c.run, ended := true }
          log := log''
          answer := .ok .ended
          notices := t.terminator.notices (settle now c.run)
          journal :=
            [.logged .nothingToCompensate, .counted .machineEnded, .logged .machineEnded,
              .counted .compensationSkipped] }
  | compensating (hopen : c.ended = false) (log' : σ) (history : List Step)
      (hread : t.history c log = (log', .ok history))
      (hsome : t.policy c history ≠ []) :
      Fired t now c log
        { context := turnAround c (t.policy c history)
          log := log'
          answer := .ok (.compensating (c.stackOrEmpty.countNew (t.policy c history)))
          journal := [.counted .compensationTriggered, .logged .compensationTriggered] }

/-- A run without anything to undo ends, unless its record cannot be written. -/
theorem fired_finish {t : Trigger σ} {c : Context} {log log' : σ} {history : List Step}
    (hopen : c.ended = false) (hread : t.history c log = (log', .ok history))
    (hnone : t.policy c history = []) (now : Timestamp) :
    t.Fired now c log (t.finish now c log') := by
  dsimp only [finish, Terminator.finish]
  rcases hwrite : t.terminator.stateLog.recordFinished log' (settle now c.run) with
    ⟨log'', written⟩
  cases written with
  | error cause => exact .unwritten hopen log' history log'' cause hread hnone hwrite
  | ok => exact .ended hopen log' history log'' hread hnone hwrite

/-- Every decision comes out in one of the ways. -/
theorem fired (t : Trigger σ) (now : Timestamp) (c : Context) (log : σ) :
    t.Fired now c log (t.fire now c log) := by
  cases hended : c.ended with
  | true =>
    rw [fire_of_ended hended]
    exact .refused hended
  | false =>
    rcases hread : t.history c log with ⟨log', cause | history⟩
    · rw [fire_of_unread hended hread]
      exact .unread hended log' cause hread
    · -- what the policy picks is shown as it is named in the effect of turning around
      have hturn : t.policy c history ≠ [] → t.Fired now c log _ :=
        .compensating hended log' history hread
      cases hsteps : t.policy c history with
      | nil =>
        rw [fire_of_nothing_left hended hread hsteps]
        exact fired_finish hended hread hsteps now
      | cons s steps =>
        rw [hsteps] at hturn
        rw [fire_of_steps_left hended hread hsteps]
        exact hturn (List.cons_ne_nil s steps)

/-- The history of a record that has steps is its own, and the log is not asked for it. -/
theorem history_of_ne_nil {t : Trigger σ} {c : Context} (hsteps : c.run.history ≠ []) (log : σ) :
    t.history c log = (log, .ok c.run.history) :=
  if_neg (by simpa using hsteps)

theorem eq_of_history_eq {t : Trigger σ} {c : Context} (hsteps : c.run.history ≠ [])
    {log log' : σ} {history : List Step} (hread : t.history c log = (log', .ok history)) :
    history = c.run.history := by
  rw [history_of_ne_nil hsteps] at hread
  exact (Except.ok.inj (Prod.mk.inj hread).2).symm

/-! ### The status of a run that turns around -/

/-- Behind a decision to compensate the status waits for no outcome. -/
theorem isOpen_status_turnAround (c : Context) (steps : List Step) :
    isOpen (turnAround c steps).run.status = false := by
  dsimp only [turnAround]
  split
  · rfl
  · simp_all

theorem status_turnAround_of_closed {c : Context} (hclosed : isOpen c.run.status = false)
    (steps : List Step) : (turnAround c steps).run.status = c.run.status :=
  if_neg (by simp [hclosed])

/-! ### Usual triggers -/

/-- A trigger whose terminator writes to the log from which the trigger reads. -/
def onLog (stateLog : StateLog σ) (policy : Policy) (listeners : Nat) : Trigger σ where
  stateLog
  policy
  terminator := ⟨stateLog, listeners⟩

/-- The usual way to decide, over a log in memory. -/
def inMemory (listeners : Nat) : Trigger MemoryLog where
  stateLog := MemoryLog.stateLog
  policy := .needed
  terminator := ⟨MemoryLog.stateLog, listeners⟩

end GlobalTransaction.Saga.Trigger
