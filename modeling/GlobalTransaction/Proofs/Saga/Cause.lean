import GlobalTransaction.Proofs.Saga.Handling

/-!
# The cause of compensation

A run carries the failure that turned it around. Another failure can be captured while the run is
compensated, and the next decision to compensate puts it in the place of the first one. So the
cause stays with the run exactly as long as no such decision finds another failure captured.

## Main definitions

* `Context.LeavesException` — the changes that do not set the failure of a run by hand
* `Handling.Spares` — the decisions that find no captured failure but the cause

## Main results

* `Trigger.Fired.exception_eq_iff` — the decisions behind which a run carries its cause as before
* `Handling.cause_kept_iff` — the runs at every moment of which the cause is kept
* `Handling.later_failure_replaces_cause` — a failure that is captured later can replace it
-/

set_option autoImplicit false

namespace GlobalTransaction.Saga

/-- The change does not set the failure of the run by hand. -/
def Context.LeavesException (_ : Context) : Context.Edit → Prop
  | .setException _ => False
  | _ => True

theorem Context.exception_edit {c : Context} {change : Edit} (hallowed : c.LeavesException change) :
    (c.edit change).1.run.exception = c.run.exception := by
  cases change with
  | setException failure => exact absurd hallowed id
  | setVariable name value =>
    cases value with
    | none => rfl
    | some value => rfl
  | setCurrent | setTriggerState | capture | takeCaptured | setStatus | setCompensation | pushStep
  | clearHistory | markStep | stack | removeVariable | markEnded => rfl

variable {σ : Type} {t : Trigger σ}

/-- A decision leaves the cause with the run exactly if it is not to compensate, or no other
failure is captured. -/
theorem Trigger.Fired.exception_eq_iff {now : Timestamp} {c : Context} {log : σ}
    {e : Effect σ Decision} (hfired : t.Fired now c log e) {cause : Failure}
    (hcause : c.run.exception = some cause) :
    e.context.run.exception = some cause ↔
      ∀ queued, e.answer = .ok (.compensating queued) →
        ∀ failure, c.captured = some failure → failure = cause := by
  cases hfired with
  | refused | unread | unwritten | ended =>
    refine iff_of_true hcause ?_
    intro queued hanswer
    exact nomatch hanswer
  | compensating =>
    -- the captured failure goes before the one that the run carries
    have hexception : ∀ steps, (turnAround c steps).run.exception = c.captured.or (some cause) :=
      fun steps => congrArg c.captured.or hcause
    rw [hexception]
    cases hcaptured : c.captured with
    | none => exact iff_of_true rfl fun _ _ _ hfailure => nomatch hfailure
    | some failure =>
      constructor
      · intro heq _ _ other hother
        exact (Option.some.inj hother).symm.trans (Option.some.inj heq)
      · intro hsame
        rw [hsame _ rfl failure rfl]
        rfl

namespace Handling

/-- A decision to compensate finds no captured failure but the cause. -/
def Spares (t : Trigger σ) (cause : Failure) (s : Handling σ) : Command σ → Prop
  | .fire now =>
    ∀ queued, (t.fire now s.context s.log).answer = .ok (.compensating queued) →
      ∀ failure, s.context.captured = some failure → failure = cause
  | .edit _ | .meanwhile _ => True

theorem exception_step_iff {cause : Failure} {s : Handling σ} {command : Command σ}
    (hallowed : Allows Context.LeavesException s command)
    (hcause : s.context.run.exception = some cause) :
    (step t s command).state.context.run.exception = some cause ↔ Spares t cause s command := by
  cases command with
  | fire now => exact (t.fired now s.context s.log).exception_eq_iff hcause
  | edit change => exact iff_of_true ((Context.exception_edit hallowed).trans hcause) trivial
  | meanwhile log => exact iff_of_true hcause trivial

/-- Take up a context whose run carries a failure, and handle it in any order with decisions and
with changes that do not set that failure by hand. The run carries it at every moment exactly if
no decision to compensate finds another failure captured. -/
theorem cause_kept_iff {start : Handling σ} {cause : Failure}
    (hcause : start.context.run.exception = some cause) {commands : List (Command σ)}
    (hrun : Outcome.Admits (step t) (Allows Context.LeavesException) start commands) :
    (∀ earlier, earlier <+: commands →
        (Outcome.run (step t) start earlier).state.context.run.exception = some cause) ↔
      Outcome.Admits (step t) (Spares t cause) start commands :=
  Outcome.forall_prefix_iff_admits (P := fun s => s.context.run.exception = some cause) hcause
    (fun _ _ hallowed hs => exception_step_iff hallowed hs) hrun

/-- The context of a run that goes on, with one step to undo. -/
def underWay : Handling MemoryLog :=
  let run := Run.start ⟨.replicate 16 7⟩ "transfer" (.ofUnixMillis 0)
  let debit := Step.compensable "A" "debit" "refund" (.ofUnixMillis 0)
  ⟨.ofRun { run with history := [debit], status := some .running }, .empty⟩

/-- A run has been turned around. Further failures keep being captured, but each is taken away
before the next decision, so the cause stays. -/
theorem cause_kept_behind_taken_failure :
    let turned := (Outcome.run (step (.inMemory 1)) underWay
      [.edit (.capture ⟨none, "original"⟩), .fire (.ofUnixMillis 1)]).state
    let commands : List (Command MemoryLog) :=
      [.edit (.capture ⟨none, "later"⟩), .edit (.stack .pop), .edit .takeCaptured,
        .fire (.ofUnixMillis 2)]
    turned.context.run.exception = some ⟨none, "original"⟩ ∧
      Outcome.Admits (step (.inMemory 1)) (Allows Context.LeavesException) turned commands ∧
      (Outcome.run (step (.inMemory 1)) turned commands).state.context.run.exception =
        some ⟨none, "original"⟩ := by
  intro turned commands
  have hcause : turned.context.run.exception = some ⟨none, "original"⟩ := rfl
  have hrun : Outcome.Admits (step (.inMemory 1)) (Allows Context.LeavesException) turned commands :=
    ⟨trivial, trivial, trivial, trivial, trivial⟩
  refine ⟨hcause, hrun, (cause_kept_iff hcause hrun).2 ?_ commands (List.prefix_refl commands)⟩
  refine ⟨trivial, trivial, trivial, ?_, trivial⟩
  intro queued _ failure hfailure
  exact nomatch hfailure

/-- A failure that is captured once the run has been turned around replaces the cause with the
next decision, although nothing else has happened. -/
theorem later_failure_replaces_cause :
    let behind := fun commands => (Outcome.run (step (.inMemory 1)) underWay commands).state.context
    let turn : List (Command MemoryLog) :=
      [.edit (.capture ⟨none, "original"⟩), .fire (.ofUnixMillis 1)]
    let again : List (Command MemoryLog) :=
      [.edit (.capture ⟨none, "later"⟩), .fire (.ofUnixMillis 2)]
    (behind turn).run.exception = some ⟨none, "original"⟩ ∧
      (behind (turn ++ again)).run.exception = some ⟨none, "later"⟩ ∧
      (behind (turn ++ again)).captured = none := by
  intro behind turn again
  exact ⟨rfl, rfl, rfl⟩

end Handling

end GlobalTransaction.Saga
