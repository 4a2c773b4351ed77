import GlobalTransaction.Proofs.Saga.Ending

/-!
# Decisions that fail

A decision about a run fails if the run has ended, if its history cannot be read, or if its final
record cannot be written. In the first two cases nothing has been touched. In the third the record
was settled before it was to be written, and the context keeps the end and the status that it got.
To decide once more comes to the same decision all the same, but a run that then turns around does
so with a status that says that it has ended.

## Main definitions

* `Policy.ByHistory` — a choice that looks at the history alone
* `Context.settled` — a context whose record has been settled

## Main results

* `settle_settle` — a record that is settled again gets a later end, and nothing else
* `Trigger.context_of_error` — what a decision that fails leaves, and what becomes of a retry
* `Trigger.unwritten_record_is_kept` — a record that was not written stays settled
-/

set_option autoImplicit false

namespace GlobalTransaction.Saga

/-- The choice of steps looks at the history alone. -/
def Policy.ByHistory (policy : Policy) : Prop :=
  ∀ c other history, policy c history = policy other history

theorem Policy.byHistory_needed : needed.ByHistory := fun _ _ _ => rfl

/-! ### Settled records -/

/-- A record that is settled once more only gets a later end. -/
theorem settle_settle (now later : Timestamp) (run : Run) :
    settle later (settle now run) = settle later run := by
  have hclosed := isOpen_status_settle now run
  rw [settle, if_neg (by simp [hclosed])]
  rfl

/-- A record stays as it is when it is settled exactly if it has this end and its status waits for
no outcome. -/
theorem settle_eq_self_iff {now : Timestamp} {run : Run} :
    settle now run = run ↔ run.endedAt = some now ∧ isOpen run.status = false := by
  constructor
  · intro hsame
    have hclosed := isOpen_status_settle now run
    rw [hsame] at hclosed
    exact ⟨congrArg Run.endedAt hsame.symm, hclosed⟩
  · rintro ⟨hend, hclosed⟩
    rw [settle, if_neg (by simp [hclosed]), ← hend]

/-- The context with its record settled. -/
def Context.settled (c : Context) (now : Timestamp) : Context :=
  { c with run := settle now c.run }

theorem Context.settled_eq_self_iff {c : Context} {now : Timestamp} :
    c.settled now = c ↔ c.run.endedAt = some now ∧ isOpen c.run.status = false := by
  rw [← settle_eq_self_iff]
  constructor
  · exact congrArg Context.run
  · exact congrArg fun run => { c with run }

namespace Trigger

variable {σ : Type} {t : Trigger σ}

/-- Whether a record was settled before makes no difference to its end. -/
theorem finish_settled (t : Trigger σ) (now later : Timestamp) (c : Context) (log : σ) :
    t.finish later (c.settled now) log = t.finish later c log := by
  rw [finish, finish, Terminator.finish, Terminator.finish, Context.settled, settle_settle]

/-- Whether a record was settled before makes no difference to the decision, and none to what a
decision that the run has ended leaves. -/
theorem fire_settled (hpolicy : t.policy.ByHistory) (now later : Timestamp) (c : Context)
    (log : σ) :
    (t.fire later (c.settled now) log).answer = (t.fire later c log).answer ∧
      ((t.fire later c log).answer = .ok .ended →
        t.fire later (c.settled now) log = t.fire later c log) := by
  -- neither what is read nor what is picked depends on the end or the status
  have hread : t.history (c.settled now) log = t.history c log := rfl
  cases hended : c.ended with
  | true =>
    have hsettled : (c.settled now).ended = true := hended
    rw [fire_of_ended hsettled, fire_of_ended hended]
    exact ⟨rfl, fun hanswer => nomatch hanswer⟩
  | false =>
    have hsettled : (c.settled now).ended = false := hended
    rcases hhistory : t.history c log with ⟨log', cause | history⟩
    · rw [fire_of_unread hsettled (hread.trans hhistory), fire_of_unread hended hhistory]
      exact ⟨rfl, fun hanswer => nomatch hanswer⟩
    · have hpick := hpolicy (c.settled now) c history
      cases hsteps : t.policy c history with
      | nil =>
        rw [fire_of_nothing_left hsettled (hread.trans hhistory) (hpick.trans hsteps),
          fire_of_nothing_left hended hhistory hsteps, finish_settled]
        exact ⟨rfl, fun _ => rfl⟩
      | cons s steps =>
        rw [fire_of_steps_left hsettled (hread.trans hhistory) (hpick.trans hsteps),
          fire_of_steps_left hended hhistory hsteps]
        exact ⟨rfl, fun hanswer => nomatch hanswer⟩

/-- A decision that fails changes at most the end and the status of the record, and tells no
listener anything. It leaves the whole context as it was exactly if the run had ended already, or
its history was not read, or its record had that end before and a status that waits for no
outcome. Whatever has become of the log later on, the decision is then the same as it would have
been from the context as it was, and so is all it leaves if the run ends. -/
theorem context_of_error (hpolicy : t.policy.ByHistory) {now : Timestamp} {c : Context} {log : σ}
    {error : Error} (hanswer : (t.fire now c log).answer = .error error) :
    let e := t.fire now c log
    (∃ status endedAt, e.context = { c with run := { c.run with status, endedAt } }) ∧
      (e.context = c ↔
        c.ended = true ∨ (∃ cause, (t.history c log).2 = .error cause) ∨
          (c.run.endedAt = some now ∧ isOpen c.run.status = false)) ∧
      e.notices = [] ∧
      ∀ later log',
        (t.fire later e.context log').answer = (t.fire later c log').answer ∧
          ((t.fire later c log').answer = .ok .ended →
            t.fire later e.context log' = t.fire later c log') := by
  have hfired := t.fired now c log
  generalize t.fire now c log = e at hfired hanswer ⊢
  dsimp only
  cases hfired with
  | ended | compensating => exact nomatch hanswer
  | refused hended =>
    exact ⟨⟨c.run.status, c.run.endedAt, rfl⟩, iff_of_true rfl (.inl hended), rfl,
      fun _ _ => ⟨rfl, fun _ => rfl⟩⟩
  | unread _ log' cause hread =>
    refine ⟨⟨c.run.status, c.run.endedAt, rfl⟩, iff_of_true rfl (.inr (.inl ⟨cause, ?_⟩)), rfl,
      fun _ _ => ⟨rfl, fun _ => rfl⟩⟩
    rw [hread]
  | unwritten hopen log' history _ _ hread =>
    -- the record has been settled, so it is as before only if settling changes nothing
    refine ⟨⟨_, _, rfl⟩, ?_, rfl, fun later log' => fire_settled hpolicy now later c log'⟩
    rw [hread, ← Context.settled_eq_self_iff]
    constructor
    · intro hsame
      exact .inr (.inr hsame)
    · rintro (hended | ⟨cause, herror⟩ | hsame)
      · exact nomatch hopen.symm.trans hended
      · exact nomatch herror
      · exact hsame

/-- A context with a captured failure whose record, made for recovery, has no steps. -/
def recovered : Context :=
  let run := Run.start ⟨.replicate 16 7⟩ "transfer" (.ofUnixMillis 0)
  { Context.ofRun { run with status := some .running } with captured := some ⟨none, "refused"⟩ }

/-- A log in which one step to undo is recorded for that run. -/
def oneStepLogged (queryRefused writeRefused : Bool) : SwitchedLog where
  log := MemoryLog.empty.record recovered.run.id
    (.compensable "A" "debit" "refund" (.ofUnixMillis 0))
  queryRefused
  writeRefused

/-- A history that cannot be read leaves the context as it was, and the next attempt turns the run
around as the first one would have. -/
theorem unread_history_leaves_context :
    let t := onLog SwitchedLog.stateLog .needed 1
    let e := t.fire (.ofUnixMillis 5) recovered (oneStepLogged true false)
    t.policy.ByHistory ∧ e.answer = .error (.store "query refused") ∧ e.context = recovered ∧
      (t.fire (.ofUnixMillis 6) e.context (oneStepLogged false false)).answer =
        .ok (.compensating 1) := by
  intro t e
  have hanswer : e.answer = .error (.store "query refused") := rfl
  obtain ⟨-, hsame, -, hretry⟩ := context_of_error Policy.byHistory_needed hanswer
  refine ⟨Policy.byHistory_needed, hanswer, hsame.2 (.inr (.inl ⟨"query refused", rfl⟩)), ?_⟩
  rw [(hretry (.ofUnixMillis 6) (oneStepLogged false false)).1]
  rfl

/-- A run without steps was to end, but its record could not be written. It stays settled as if
the run had ended well. When a step is recorded for the run in the meantime, the next attempt
turns it around with that end and that status, where the first one would have left it open. -/
theorem unwritten_record_is_kept :
    let t := onLog SwitchedLog.stateLog .needed 1
    let c := { recovered with captured := none }
    let e := t.fire (.ofUnixMillis 5) c ⟨.empty, false, true⟩
    let retry := t.fire (.ofUnixMillis 6) e.context (oneStepLogged false false)
    let first := t.fire (.ofUnixMillis 6) c (oneStepLogged false false)
    e.answer = .error (.store "write refused") ∧ e.context ≠ c ∧
      e.context.run.status = some .succeeded ∧
      e.context.run.endedAt = some (.ofUnixMillis 5) ∧
      retry.answer = .ok (.compensating 1) ∧ first.answer = .ok (.compensating 1) ∧
      retry.context.run.status = some .succeeded ∧ first.context.run.status = some .unknown ∧
      retry.context.run.endedAt = some (.ofUnixMillis 5) ∧
      first.context.run.endedAt = none := by
  intro t c e retry first
  have hend : e.context.run.endedAt = some (.ofUnixMillis 5) := rfl
  refine ⟨rfl, ?_, rfl, hend, rfl, rfl, rfl, rfl, rfl, rfl⟩
  intro hsame
  rw [hsame] at hend
  exact nomatch hend

end Trigger

end GlobalTransaction.Saga
