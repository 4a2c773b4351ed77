import GlobalTransaction.Proofs.Saga.Conclusion
import GlobalTransaction.Proofs.Saga.Refusal

/-!
# How statuses change

The status of the way forward waits for an outcome until it is decided about the run. It gets its
outcome with the decision, and never changes any more: unknown if the run is compensated, and
otherwise what the record says of the run as it ends. The status of the way back changes with
decisions to compensate alone. What a run is and what it has done stays as it is.

## Main definitions

* `Trigger.NothingLeft` — it is decided about a run that has nothing to undo
* `Context.SameCourse` — a run is the same, and has done the same
* `Watched.attempts` — the records that were to be written, whether they were or not
* `Trigger.Transition` — how one decision changes the statuses, and what goes with that

## Main results

* `Trigger.transition` — every decision changes them in this way
* `Handling.status_of_closed` — a status that waits for no outcome stays as it is
* `Handling.status_law` — both, at every moment of every run
-/

set_option autoImplicit false

namespace GlobalTransaction.Saga

variable {σ : Type}

/-- The decision is to compensate. -/
def Effect.Compensates (e : Effect σ Decision) : Prop :=
  ∃ queued, e.answer = .ok (.compensating queued)

/-- It is decided about a run that has not ended, its history is read, and nothing in it is picked
to be undone. -/
def Trigger.NothingLeft (t : Trigger σ) (c : Context) (log : σ) : Prop :=
  c.ended = false ∧ ∃ history, (t.history c log).2 = .ok history ∧ t.policy c history = []

/-- The run of two contexts is the same and has done the same, as far as that is recorded, and the
process has got as far, with the same variables. -/
structure Context.SameCourse (c other : Context) : Prop where
  id_eq : other.run.id = c.run.id
  machineName_eq : other.run.machineName = c.run.machineName
  businessKey_eq : other.run.businessKey = c.run.businessKey
  startedAt_eq : other.run.startedAt = c.run.startedAt
  history_eq : other.run.history = c.run.history
  values_eq : other.values = c.values
  current_eq : other.current = c.current

/-- The change does not set the status of the way forward by hand. -/
def Context.LeavesStatus (_ : Context) : Context.Edit → Prop
  | .setStatus _ => False
  | _ => True

theorem Context.status_edit {c : Context} {change : Edit} (hallowed : c.LeavesStatus change) :
    (c.edit change).1.run.status = c.run.status := by
  cases change with
  | setStatus status => exact absurd hallowed id
  | setVariable name value =>
    cases value with
    | none => rfl
    | some value => rfl
  | setCurrent | setTriggerState | capture | takeCaptured | setCompensation | setException
  | pushStep | clearHistory | markStep | stack | removeVariable | markEnded => rfl

/-! ### Attempts to write -/

/-- The record that a call was to write. -/
def StateLog.Call.record? : StateLog.Call → Option Run
  | .write run _ => some run
  | .read _ _ => none

/-- The records that were to be written, in order, whether they were or not. -/
def Watched.attempts (w : Watched σ) : List Run := w.calls.filterMap StateLog.Call.record?

variable {stateLog : StateLog σ} {policy : Policy} {listeners : Nat}

theorem StateLog.attempts_recordFinished {w w' : Watched σ} {run : Run}
    {written : Except String Unit} (h : stateLog.watched.recordFinished w run = (w', written)) :
    w'.attempts = w.attempts ++ [run] := by
  obtain ⟨rfl, -⟩ := Prod.mk.inj h
  exact List.filterMap_append

theorem Trigger.attempts_history {c : Context} {w w' : Watched σ} {read : Except String (List Step)}
    (h : (onLog stateLog.watched policy listeners).history c w = (w', read)) :
    w'.attempts = w.attempts := by
  rw [history] at h
  split at h
  · obtain ⟨rfl, -⟩ := Prod.mk.inj h
    exact List.filterMap_append.trans (List.append_nil _)
  · obtain ⟨rfl, -⟩ := Prod.mk.inj h
    rfl

namespace Trigger

/-! ### One decision -/

/-- How a decision changes the statuses of a run, and what goes with that. -/
structure Transition (t : Trigger (Watched σ)) (c : Context) (w : Watched σ)
    (e : Effect (Watched σ) Decision) : Prop where
  /-- Only a status that waits for an outcome changes. -/
  isOpen_of_ne : e.context.run.status ≠ c.run.status → isOpen c.run.status
  /-- It becomes unknown exactly when the run is to be compensated. -/
  unknown_iff : isOpen c.run.status → (e.context.run.status = some .unknown ↔ e.Compensates)
  /-- Otherwise it is settled, and only where nothing is left to undo. -/
  settled_of_ne : e.context.run.status ≠ c.run.status → ¬ e.Compensates →
    (e.context.run.status = some .succeeded ∨ e.context.run.status = some .failed) ∧
      t.NothingLeft c w
  /-- A decision to compensate starts the way back. -/
  compensation_running : e.Compensates → e.context.run.compensation = some .running
  /-- No other decision touches the status of the way back. -/
  compensation_eq : ¬ e.Compensates → e.context.run.compensation = c.run.compensation
  /-- Where nothing is left to undo, one record is to be written, the one that the context has. -/
  attempts_of_nothingLeft : t.NothingLeft c w → e.log.attempts = w.attempts ++ [e.context.run]
  /-- Everywhere else no record is to be written. -/
  attempts_eq : ¬ t.NothingLeft c w → e.log.attempts = w.attempts
  /-- Everywhere else no listener is told anything. -/
  notices_eq : ¬ t.NothingLeft c w → e.notices = []
  /-- The run stays what it is and what it has done. -/
  sameCourse : c.SameCourse e.context
  /-- Behind a decision that does not fail the status waits for nothing. -/
  closed_of_ok : ∀ decision, e.answer = .ok decision → isOpen e.context.run.status = false

section Transition

variable {t : Trigger (Watched σ)} {c : Context} {w w' : Watched σ}

/-- A decision that fails before the record is settled. -/
theorem Transition.of_untouched {error : Error} (hattempts : w'.attempts = w.attempts)
    (hleft : ¬ t.NothingLeft c w) :
    t.Transition c w { context := c, log := w', answer := .error error } where
  isOpen_of_ne hne := absurd rfl hne
  unknown_iff hopen := by
    refine iff_of_false (fun hunknown => ?_) fun hturned => nomatch hturned
    rw [hunknown] at hopen
    exact nomatch hopen
  settled_of_ne hne _ := absurd rfl hne
  compensation_running hturned := nomatch hturned
  compensation_eq _ := rfl
  attempts_of_nothingLeft hnone := absurd hnone hleft
  attempts_eq _ := hattempts
  notices_eq _ := rfl
  sameCourse := ⟨rfl, rfl, rfl, rfl, rfl, rfl, rfl⟩
  closed_of_ok _ hok := nomatch hok

/-- A decision that settles the record of a run with nothing to undo, whether the record was then
written or not. -/
theorem Transition.of_settled {now : Timestamp} {ended : Bool} {answer : Except Error Decision}
    {notices : List Notice} {journal : Journal}
    (hanswer : ∀ queued, answer ≠ .ok (.compensating queued))
    (hattempts : w'.attempts = w.attempts ++ [settle now c.run]) (hleft : t.NothingLeft c w) :
    t.Transition c w ⟨{ c with run := settle now c.run, ended }, w', answer, notices, journal⟩ := by
  have hchanged : (settle now c.run).status ≠ c.run.status → isOpen c.run.status := by
    intro hne
    by_contra hclosed
    exact hne (status_settle_of_closed (by simpa using hclosed) now)
  have houtcome : isOpen c.run.status →
      (settle now c.run).status = some .succeeded ∨ (settle now c.run).status = some .failed := by
    intro hopen
    rw [status_settle_of_isOpen hopen]
    split
    · exact .inr rfl
    · exact .inl rfl
  have hturned : ∀ {P : Prop}, (∃ queued, answer = .ok (.compensating queued)) → P := by
    rintro P ⟨queued, hqueued⟩
    exact absurd hqueued (hanswer queued)
  exact {
    isOpen_of_ne := hchanged
    unknown_iff := by
      intro hopen
      refine iff_of_false (fun hunknown => ?_) fun h => hturned h
      rcases houtcome hopen with hwell | hbadly
      · exact nomatch hunknown.symm.trans hwell
      · exact nomatch hunknown.symm.trans hbadly
    settled_of_ne := fun hne _ => ⟨houtcome (hchanged hne), hleft⟩
    compensation_running := fun h => hturned h
    compensation_eq := fun _ => rfl
    attempts_of_nothingLeft := fun _ => hattempts
    attempts_eq := fun hnot => absurd hleft hnot
    notices_eq := fun hnot => absurd hleft hnot
    sameCourse := ⟨rfl, rfl, rfl, rfl, rfl, rfl, rfl⟩
    closed_of_ok := fun _ _ => isOpen_status_settle now c.run }

/-- A decision that turns the run around. -/
theorem Transition.of_turned {steps : List Step} {queued : Nat} {journal : Journal}
    (hattempts : w'.attempts = w.attempts) (hleft : ¬ t.NothingLeft c w) :
    t.Transition c w
      { context := turnAround c steps, log := w', answer := .ok (.compensating queued), journal }
    where
  isOpen_of_ne hne := by
    by_contra hclosed
    exact hne (status_turnAround_of_closed (by simpa using hclosed) steps)
  unknown_iff hopen := iff_of_true (if_pos hopen) ⟨queued, rfl⟩
  settled_of_ne _ hnot := absurd ⟨queued, rfl⟩ hnot
  compensation_running _ := rfl
  compensation_eq hnot := absurd ⟨queued, rfl⟩ hnot
  attempts_of_nothingLeft hnone := absurd hnone hleft
  attempts_eq _ := hattempts
  notices_eq _ := rfl
  sameCourse := ⟨rfl, rfl, rfl, rfl, rfl, rfl, rfl⟩
  closed_of_ok _ _ := isOpen_status_turnAround c steps

/-- Every decision over a watched log changes the statuses as a transition does. -/
theorem transition (stateLog : StateLog σ) (policy : Policy) (listeners : Nat) (now : Timestamp)
    (c : Context) (w : Watched σ) :
    let t := onLog stateLog.watched policy listeners
    t.Transition c w (t.fire now c w) := by
  intro t
  have hfired := t.fired now c w
  generalize t.fire now c w = e at hfired ⊢
  cases hfired with
  | refused hended =>
    refine .of_untouched rfl ?_
    rintro ⟨hopen, -⟩
    exact nomatch hended.symm.trans hopen
  | unread _ w' cause hread =>
    refine .of_untouched (attempts_history hread) ?_
    rintro ⟨-, history, hok, -⟩
    rw [hread] at hok
    exact nomatch hok
  | unwritten hopen w' history w'' cause hread hnone hwrite =>
    refine .of_settled (fun _ hturned => nomatch hturned) ?_ ⟨hopen, history, ?_, hnone⟩
    · rw [StateLog.attempts_recordFinished hwrite, attempts_history hread]
    · rw [hread]
  | ended hopen w' history w'' hread hnone hwrite =>
    refine .of_settled (fun _ hturned => nomatch hturned) ?_ ⟨hopen, history, ?_, hnone⟩
    · rw [StateLog.attempts_recordFinished hwrite, attempts_history hread]
    · rw [hread]
  | compensating _ w' history hread hsome =>
    refine .of_turned (attempts_history hread) ?_
    -- the policy picks something in the one history that is read
    rintro ⟨-, other, hok, hnone⟩
    rw [hread] at hok
    obtain rfl := Except.ok.inj hok
    exact hsome hnone

end Transition

/-- A status that waits for no outcome is not changed by a decision. -/
theorem Fired.status_of_closed {t : Trigger σ} {now : Timestamp} {c : Context} {log : σ}
    {e : Effect σ Decision} (hfired : t.Fired now c log e)
    (hclosed : isOpen c.run.status = false) : e.context.run.status = c.run.status := by
  cases hfired with
  | refused | unread => rfl
  | unwritten | ended => exact status_settle_of_closed hclosed now
  | compensating => exact status_turnAround_of_closed hclosed _

end Trigger

/-! ### Runs -/

namespace Handling

variable {t : Trigger σ} {start : Handling σ}

/-- A status that waits for no outcome stays as it is, whatever is decided and whatever else
happens, as long as it is not set by hand. -/
theorem status_of_closed (hclosed : isOpen start.context.run.status = false)
    {commands : List (Command σ)}
    (hrun : Outcome.Admits (step t) (Allows Context.LeavesStatus) start commands) :
    (Outcome.run (step t) start commands).state.context.run.status =
      start.context.run.status := by
  refine context_induction (P := fun c => c.run.status = start.context.run.status) ?_ ?_ rfl hrun
  · intro now c log e hfired hsame
    rw [← hsame] at hclosed ⊢
    exact hfired.status_of_closed hclosed
  · intro c change hallowed hsame
    exact (Context.status_edit hallowed).trans hsame

/-- Handle a run in any order with decisions and with changes that do not set its status by hand,
over a state log that others may leave in any state and whose calls may fail at any time. The next
decision changes the statuses of the run as a transition does. A status that waited for no outcome
at any moment has not changed since. -/
theorem status_law (stateLog : StateLog σ) (policy : Policy) (listeners : Nat)
    {start : Handling (Watched σ)} {commands : List (Command (Watched σ))}
    (hrun : Outcome.Admits (step (.onLog stateLog.watched policy listeners))
      (Allows Context.LeavesStatus) start commands) :
    let t := Trigger.onLog stateLog.watched policy listeners
    let behind := fun past => (Outcome.run (step t) start past).state
    let s := behind commands
    (∀ now, t.Transition s.context s.log (t.fire now s.context s.log)) ∧
      ∀ earlier, earlier <+: commands → isOpen (behind earlier).context.run.status = false →
        s.context.run.status = (behind earlier).context.run.status := by
  intro t behind s
  refine ⟨fun now => Trigger.transition stateLog policy listeners now s.context s.log, ?_⟩
  rintro earlier ⟨later, rfl⟩ hclosed
  have hstate : s = (Outcome.run (step t) (behind earlier) later).state :=
    Outcome.state_run_append start earlier later
  rw [hstate]
  exact status_of_closed hclosed (Outcome.admits_append.1 hrun).2

/-- A run without steps is to end, but its record cannot be written. When a step to undo has been
recorded for it, it is compensated instead. Its status was settled by then, and stays. -/
theorem status_kept_behind_refused_write :
    let t := Trigger.onLog SwitchedLog.stateLog.watched .needed 1
    let start : Handling (Watched SwitchedLog) :=
      ⟨{ Trigger.recovered with captured := none }, ⟨⟨.empty, false, true⟩, []⟩⟩
    let refused := (step t start (.fire (.ofUnixMillis 5))).state
    let commands : List (Command (Watched SwitchedLog)) :=
      [.fire (.ofUnixMillis 5), .meanwhile ⟨Trigger.oneStepLogged false false, refused.log.calls⟩,
        .fire (.ofUnixMillis 6)]
    let s := (Outcome.run (step t) start commands).state
    Outcome.Admits (step t) (Allows Context.LeavesStatus) start commands ∧
      s.context.run.status = some .succeeded ∧ s.context.run.compensation = some .running ∧
      s.log.attempts = [refused.context.run] ∧
      t.Transition s.context s.log (t.fire (.ofUnixMillis 7) s.context s.log) := by
  intro t start refused commands s
  have hrun : Outcome.Admits (step t) (Allows Context.LeavesStatus) start commands :=
    ⟨trivial, trivial, trivial, trivial⟩
  obtain ⟨htransition, hkept⟩ := status_law SwitchedLog.stateLog .needed 1 hrun
  have hfirst : [.fire (.ofUnixMillis 5)] <+: commands := ⟨commands.tail, rfl⟩
  exact ⟨hrun, hkept _ hfirst rfl, rfl, rfl, htransition (.ofUnixMillis 7)⟩

end Handling

end GlobalTransaction.Saga
