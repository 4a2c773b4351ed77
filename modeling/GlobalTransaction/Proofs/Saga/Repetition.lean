import GlobalTransaction.Proofs.Saga.Refusal
import GlobalTransaction.Proofs.Saga.Stack

/-!
# Repeated decisions

To decide once more about a run that has just been turned around changes nothing, whatever steps
the policy picks out of the history and however often an identifier comes among them. The steps
wait already, the captured failure has become that of the run, and the status no longer waits for
an outcome.

## Main results

* `Trigger.turnAround_turnAround` — a run that is turned around once more stays as it is
* `Trigger.repeated_decision` — a decision to compensate, and the same decision once more
-/

set_option autoImplicit false

namespace GlobalTransaction.Saga.Trigger

variable {σ : Type} {t : Trigger σ}

/-- A run that is turned around once more, with the same steps, stays as it is. -/
@[simp] theorem turnAround_turnAround (c : Context) (steps : List Step) :
    turnAround (turnAround c steps) steps = turnAround c steps := by
  have hstatus : (turnAround (turnAround c steps) steps).run.status =
      (turnAround c steps).run.status :=
    status_turnAround_of_closed (isOpen_status_turnAround c steps) steps
  have hstack : (turnAround (turnAround c steps) steps).stack = (turnAround c steps).stack :=
    congrArg some (c.stackOrEmpty.pushAll_pushAll steps)
  -- no failure is captured any more, so that of the run stays, and nothing else is written anew
  change { turnAround c steps with
    run := { (turnAround c steps).run with
      status := (turnAround (turnAround c steps) steps).run.status }
    stack := (turnAround (turnAround c steps) steps).stack } = turnAround c steps
  rw [hstatus, hstack]

/-- To decide once more about a run that has been turned around queues nothing and leaves the
context as it is, if the same history is read and the policy looks at nothing else. -/
theorem fire_turnAround (hpolicy : t.policy.ByHistory) {c : Context} {log log' : σ}
    {history : List Step} (hopen : c.ended = false) (hread : t.history c log = (log', .ok history))
    (hsome : t.policy c history ≠ []) (now : Timestamp) :
    t.fire now (turnAround c (t.policy c history)) log =
      { context := turnAround c (t.policy c history)
        log := log'
        answer := .ok (.compensating 0)
        journal := [.counted .compensationTriggered, .logged .compensationTriggered] } := by
  -- neither the end nor the history of a run is touched when it is turned around
  have hended : (turnAround c (t.policy c history)).ended = false := hopen
  have hagain : t.history (turnAround c (t.policy c history)) log = (log', .ok history) := hread
  have hpick := hpolicy (turnAround c (t.policy c history)) c history
  have hcount :
      (turnAround c (t.policy c history)).stackOrEmpty.countNew (t.policy c history) = 0 :=
    c.stackOrEmpty.countNew_pushAll (t.policy c history)
  cases hsteps : t.policy c history with
  | nil => exact absurd hsteps hsome
  | cons s steps =>
    rw [hsteps] at hended hagain hpick hcount
    rw [fire_of_steps_left hended hagain hpick, hcount, turnAround_turnAround]

/-- Behind a decision to compensate steps wait, among them each step that the policy picked, and
the identifier of each is there once. Another decision that reads the same history, whenever it is
taken and whatever else has become of the log, queues nothing, tells no listener anything and
leaves the whole context as it is. -/
theorem repeated_decision (hpolicy : t.policy.ByHistory) {now : Timestamp} {c : Context} {log : σ}
    {queued : Nat} (hstack : c.stackOrEmpty.Reachable)
    (hanswer : (t.fire now c log).answer = .ok (.compensating queued)) :
    let first := t.fire now c log
    (∃ history, (t.history c log).2 = .ok history ∧
      first.context.stackOrEmpty.isEmpty = false ∧
      ∀ s ∈ t.policy c history, first.context.stackOrEmpty.contains s.id ∧
        (first.context.stackOrEmpty.steps.map Step.id).count s.id = 1) ∧
    ∀ later log', (t.history first.context log').2 = (t.history c log).2 →
      let second := t.fire later first.context log'
      second.answer = .ok (.compensating 0) ∧ second.context = first.context ∧
        second.notices = [] := by
  have hfired := t.fired now c log
  generalize t.fire now c log = first at hfired hanswer ⊢
  dsimp only
  cases hfired with
  | refused | unread | unwritten | ended => exact nomatch hanswer
  | compensating hopen log' history hread hsome =>
    have hsound := hstack.sound.pushAll (t.policy c history)
    have hpicked : ∀ s ∈ t.policy c history,
        (c.stackOrEmpty.pushAll (t.policy c history)).contains s.id := by
      intro s hs
      exact (CompensationStack.contains_pushAll _ _ _).2 (.inr ⟨s, hs, rfl⟩)
    have hhistory : (t.history c log).2 = .ok history := congrArg Prod.snd hread
    constructor
    · obtain ⟨some, hpick⟩ := List.exists_mem_of_ne_nil _ hsome
      exact ⟨history, hhistory, hsound.not_isEmpty (hpicked some hpick),
        fun s hs => ⟨hpicked s hs, hsound.count_id (hpicked s hs)⟩⟩
    · intro later log'' halike
      have hread' : t.history c log'' = ((t.history c log'').1, .ok history) :=
        Prod.ext rfl (halike.trans hhistory)
      rw [fire_turnAround hpolicy hopen hread' hsome later]
      exact ⟨rfl, rfl, rfl⟩

/-- A run made for recovery, on its second way through: of two steps that were stacked, one has
been popped again, and forward execution has failed anew. -/
def takenUpAgain : Context :=
  let run := Run.start ⟨.replicate 16 7⟩ "transfer" (.ofUnixMillis 0)
  let a := Step.compensable "A" "debit" "refund" (.ofUnixMillis 0)
  let b := Step.compensable "B" "book" "cancel" (.ofUnixMillis 1)
  { Context.ofRun { run with status := some .running, exception := some ⟨none, "refused"⟩ } with
    current := some "notify"
    captured := some ⟨some "notify", "timed out"⟩
    stack := some ((CompensationStack.empty.pushAll [a, b]).pop.elim .empty Prod.snd) }

/-- The log of that run, in which two identifiers come twice. -/
def loggedTwice : MemoryLog :=
  ["A", "B", "C", "B", "A"].foldl (fun log id =>
    log.record takenUpAgain.run.id (.compensable id "retry" "undo" (.ofUnixMillis 2))) .empty

/-- The whole history is to be undone, with one step that waits already and identifiers that come
twice. Between the two decisions a step of another run is logged. -/
theorem repeated_decision_half_drained :
    let t := onLog MemoryLog.stateLog .everything 1
    let first := t.fire (.ofUnixMillis 3) takenUpAgain loggedTwice
    let later := first.log.record ⟨.replicate 16 8⟩ (.compensable "D" "debit" "refund"
      (.ofUnixMillis 4))
    let second := t.fire (.ofUnixMillis 5) first.context later
    takenUpAgain.stackOrEmpty.steps.map Step.id = ["A"] ∧
      first.answer = .ok (.compensating 2) ∧
      first.context.stackOrEmpty.steps.map Step.id = ["C", "B", "A"] ∧
      first.context.run.exception = some ⟨some "notify", "timed out"⟩ ∧
      second.answer = .ok (.compensating 0) ∧ second.context = first.context := by
  intro t first later second
  have hanswer : first.answer = .ok (.compensating 2) := rfl
  have hstack : takenUpAgain.stackOrEmpty.Reachable :=
    ⟨[.pushAll [.compensable "A" "debit" "refund" (.ofUnixMillis 0),
      .compensable "B" "book" "cancel" (.ofUnixMillis 1)], .pop], rfl⟩
  obtain ⟨-, hagain⟩ := repeated_decision (t := t) (fun _ _ _ => rfl) hstack hanswer
  obtain ⟨hsecond, hsame, -⟩ := hagain (.ofUnixMillis 5) later rfl
  exact ⟨rfl, hanswer, rfl, rfl, hsecond, hsame⟩

end GlobalTransaction.Saga.Trigger
