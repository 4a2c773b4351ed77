import GlobalTransaction.Proofs.Saga.Decision

/-!
# What a run that ends is said to be

When a run ends because nothing is left to undo, its status and its failure are settled in one
record. The context keeps that record, the state log writes it, and every listener is told it. A
failure counts only where the record carries it already: one that is merely captured in the
context becomes the failure of the run on the way to compensation, not on the way to its end.

## Main definitions

* `Run.HasFailed` — a record says that its run has failed, and why

## Main results

* `isOpen_status_settle`, `status_settle_of_closed` — the status of a final record
* `settle_hasFailed_iff` — when the final record of an open run says that it has failed
* `Trigger.ended_hasFailed_iff` — the same for every run that ends, wherever its record gets to
* `Trigger.captured_failure_lost` — a run with a captured failure can end as a success
* `Trigger.exception_of_compensating` — on the way to compensation it becomes that of the run
-/

set_option autoImplicit false

namespace GlobalTransaction.Saga

/-- The record says that the run has failed, and carries the failure. -/
def Run.HasFailed (run : Run) : Prop := run.status = some .failed ∧ run.exception.isSome

theorem status_settle_of_isOpen {run : Run} (hopen : isOpen run.status) (now : Timestamp) :
    (settle now run).status = some (if run.exception.isSome then .failed else .succeeded) := by
  dsimp only [settle]
  rw [if_pos hopen]
  split
  · rfl
  · rfl

theorem status_settle_of_closed {run : Run} (hclosed : isOpen run.status = false)
    (now : Timestamp) : (settle now run).status = run.status :=
  if_neg (by simp [hclosed])

/-- The final record of a run waits for no outcome. -/
theorem isOpen_status_settle (now : Timestamp) (run : Run) :
    isOpen (settle now run).status = false := by
  dsimp only [settle]
  split
  · split
    · rfl
    · rfl
  · next hopen => simpa using hopen

/-- The final record of an open run says that the run has failed exactly if it carried a failure
before. -/
theorem settle_hasFailed_iff {run : Run} (hopen : isOpen run.status) (now : Timestamp) :
    (settle now run).HasFailed ↔ run.exception.isSome := by
  constructor
  · intro hfailed
    exact hfailed.2
  · intro hexception
    refine ⟨?_, hexception⟩
    rw [status_settle_of_isOpen hopen, if_pos hexception]

namespace Trigger

variable {σ : Type}

/-- A run that is open and ends for want of anything to undo has one final record. The context
holds it, the state log was given it, and every listener was told it. It says that the run has
failed exactly if the run carried a failure itself, and otherwise that it has ended well. -/
theorem ended_hasFailed_iff (t : Trigger σ) (now : Timestamp) (c : Context) (log : σ)
    (hopen : isOpen c.run.status) (hended : (t.fire now c log).answer = .ok .ended) :
    ∃ run : Run,
      (t.fire now c log).context.run = run ∧
      t.terminator.stateLog.recordFinished (t.history c log).1 run =
        ((t.fire now c log).log, .ok ()) ∧
      (t.fire now c log).notices = t.terminator.notices run ∧
      (run.HasFailed ↔ c.run.exception.isSome) ∧
      (c.run.exception = none → run.status = some .succeeded ∧ run.exception = none) := by
  have hfired := t.fired now c log
  generalize t.fire now c log = e at hfired hended ⊢
  cases hfired with
  | refused | unread | unwritten | compensating => exact nomatch hended
  | ended _ log' history log'' hread hnone hwrite =>
    -- one and the same record goes into the context, to the log and to the listeners
    refine ⟨settle now c.run, rfl, ?_, rfl, settle_hasFailed_iff hopen now, ?_⟩
    · rw [hread]
      exact hwrite
    · intro hexception
      refine ⟨?_, hexception⟩
      rw [status_settle_of_isOpen hopen, hexception]
      rfl

/-- On the way to compensation a failure does not get lost: behind it the run carries the captured
one, or else its own. -/
theorem exception_of_compensating {t : Trigger σ} {now : Timestamp} {c : Context} {log : σ}
    {queued : Nat} (hanswer : (t.fire now c log).answer = .ok (.compensating queued)) :
    (t.fire now c log).context.run.exception = c.captured.or c.run.exception ∧
      (t.fire now c log).context.captured = none := by
  have hfired := t.fired now c log
  generalize t.fire now c log = e at hfired hanswer ⊢
  cases hfired with
  | refused | unread | unwritten | ended => exact nomatch hanswer
  | compensating => exact ⟨rfl, rfl⟩

/-- A context whose run goes on after its only step has failed. Its failure is captured in the
context or carried by the run, or neither. -/
def brokenOff (captured exception : Option Failure) : Context :=
  let run := Run.start ⟨.replicate 16 7⟩ "transfer" (.ofUnixMillis 0)
  let debit := Step.ofKind "A" "debit" .serviceTask .failed (.ofUnixMillis 0)
  { Context.ofRun { run with history := [debit], status := some .running, exception } with captured }

/-- A run whose failure it carries itself ends as failed. -/
theorem ended_with_own_failure :
    isOpen (brokenOff none (some ⟨none, "refused"⟩)).run.status ∧
      ((inMemory 1).fire (.ofUnixMillis 5) (brokenOff none (some ⟨none, "refused"⟩)) .empty).answer =
        .ok .ended ∧
      ((inMemory 1).fire (.ofUnixMillis 5)
        (brokenOff none (some ⟨none, "refused"⟩)) .empty).context.run.HasFailed := by
  refine ⟨rfl, rfl, ?_⟩
  obtain ⟨run, hrun, -, -, hfailed, -⟩ := ended_hasFailed_iff (inMemory 1) (.ofUnixMillis 5)
    (brokenOff none (some ⟨none, "refused"⟩)) .empty rfl rfl
  rw [hrun]
  exact hfailed.2 rfl

/-- A failure that is only captured is lost where nothing is to be undone. The run ends as a
success, in its context, in the log and for the listener, and no record carries the failure. -/
theorem captured_failure_lost :
    let c := brokenOff (some ⟨none, "refused"⟩) none
    let e := (inMemory 1).fire (.ofUnixMillis 5) c .empty
    isOpen c.run.status ∧ c.captured = some ⟨none, "refused"⟩ ∧ e.answer = .ok .ended ∧
      ¬ e.context.run.HasFailed ∧
      e.context.run.status = some .succeeded ∧ e.context.run.exception = none ∧
      e.log.finished c.run.id = some e.context.run ∧
      e.notices = [⟨0, e.context.run⟩] := by
  intro c e
  -- what was captured has stayed in the context, where the terminator does not look
  have hexception : e.context.run.exception = none := rfl
  refine ⟨rfl, rfl, rfl, ?_, rfl, hexception, rfl, rfl⟩
  rintro ⟨-, hfailure⟩
  rw [hexception] at hfailure
  exact nomatch hfailure

end Trigger

end GlobalTransaction.Saga
