import GlobalTransaction.Proofs.Saga.Ending
import GlobalTransaction.Proofs.Saga.Handling

/-!
# A run ends once

A run that is handled with one context ends once at most. What goes with its end goes with it
exactly once: its record is written, every listener is told, and both counters go up. Attempts
that fail in between leave no trace of this kind, and behind the end nothing happens any more.

To speak of what is written, the calls of a state log are noted beside its state. That changes
nothing about decisions.

## Main definitions

* `StateLog.watched` — a state log whose calls are noted
* `Watched.written` — the records that were written
* `Handling.Tallied` — endings go with written records, notices and counters

## Main results

* `Trigger.fire_watched` — decisions over a watched log are those over the log itself
* `Handling.tallied_run` — the tally behind every run
* `Handling.ends_once` — a run ends once, and nothing happens behind its end
-/

set_option autoImplicit false

namespace GlobalTransaction.Saga

variable {σ : Type}

/-! ### Watched logs -/

/-- A call of a state log, with what came of it. -/
inductive StateLog.Call
  | read (id : InstanceId) (result : Except String (List Step))
  | write (run : Run) (result : Except String Unit)

/-- The record that a call has written. -/
def StateLog.Call.written? : StateLog.Call → Option Run
  | .write run (.ok _) => some run
  | .write _ (.error _) | .read _ _ => none

/-- The state of a log, and the calls so far. -/
structure Watched (σ : Type) where
  log : σ
  calls : List StateLog.Call

/-- The records that were written, in order. -/
def Watched.written (w : Watched σ) : List Run := w.calls.filterMap StateLog.Call.written?

/-- A state log whose calls are noted. -/
def StateLog.watched (stateLog : StateLog σ) : StateLog (Watched σ) where
  history w id :=
    let read := stateLog.history w.log id
    (⟨read.1, w.calls ++ [.read id read.2]⟩, read.2)
  recordFinished w run :=
    let written := stateLog.recordFinished w.log run
    (⟨written.1, w.calls ++ [.write run written.2]⟩, written.2)

theorem Watched.written_append (log : σ) (calls more : List StateLog.Call) :
    (Watched.mk log (calls ++ more)).written =
      (Watched.mk log calls).written ++ more.filterMap StateLog.Call.written? :=
  List.filterMap_append

variable {stateLog : StateLog σ} {w w' : Watched σ}

/-- A record that was written is the last one, and the log is as its writing has left it. -/
theorem StateLog.written_of_ok {run : Run}
    (h : stateLog.watched.recordFinished w run = (w', .ok ())) :
    w'.written = w.written ++ [run] ∧ stateLog.recordFinished w.log run = (w'.log, .ok ()) := by
  obtain ⟨rfl, hresult⟩ := Prod.mk.inj h
  refine ⟨?_, Prod.ext rfl hresult⟩
  rw [Watched.written_append, hresult]
  rfl

theorem StateLog.written_of_error {run : Run} {cause : String}
    (h : stateLog.watched.recordFinished w run = (w', .error cause)) : w'.written = w.written := by
  obtain ⟨rfl, hresult⟩ := Prod.mk.inj h
  rw [Watched.written_append, hresult]
  exact List.append_nil _

namespace Trigger

/-- To read a history writes nothing. -/
theorem written_history {policy : Policy} {listeners : Nat} {c : Context}
    {read : Except String (List Step)}
    (h : (onLog stateLog.watched policy listeners).history c w = (w', read)) :
    w'.written = w.written := by
  rw [history] at h
  split at h
  · obtain ⟨rfl, -⟩ := Prod.mk.inj h
    rw [Watched.written_append]
    exact List.append_nil _
  · obtain ⟨rfl, -⟩ := Prod.mk.inj h
    rfl

/-- The effect on a watched log, without the calls. -/
def unwatch (e : Effect (Watched σ) Decision) : Effect σ Decision where
  context := e.context
  log := e.log.log
  answer := e.answer
  notices := e.notices
  journal := e.journal

/-- Histories are read from a watched log as from the log itself. -/
theorem history_watched (stateLog : StateLog σ) (policy : Policy) (listeners : Nat) (c : Context)
    (w : Watched σ) :
    (onLog stateLog policy listeners).history c w.log =
      (((onLog stateLog.watched policy listeners).history c w).1.log,
        ((onLog stateLog.watched policy listeners).history c w).2) := by
  rw [history, history]
  split
  · rfl
  · rfl

/-- Decisions over a watched log are those over the log itself. -/
theorem fire_watched (stateLog : StateLog σ) (policy : Policy) (listeners : Nat) (now : Timestamp)
    (c : Context) (w : Watched σ) :
    (onLog stateLog policy listeners).fire now c w.log =
      unwatch ((onLog stateLog.watched policy listeners).fire now c w) := by
  have hread := history_watched stateLog policy listeners c w
  cases hended : c.ended with
  | true =>
    rw [fire_of_ended hended, fire_of_ended hended]
    rfl
  | false =>
    rcases hhistory : (onLog stateLog.watched policy listeners).history c w with
      ⟨w', cause | history⟩
    · rw [hhistory] at hread
      rw [fire_of_unread hended hread, fire_of_unread hended hhistory]
      rfl
    · rw [hhistory] at hread
      cases hsteps : policy c history with
      | nil =>
        -- only here the log is written, with the same outcome on both sides
        rw [fire_of_nothing_left hended hread hsteps, fire_of_nothing_left hended hhistory hsteps,
          finish, finish, Terminator.finish, Terminator.finish]
        dsimp only [onLog, StateLog.watched]
        rcases stateLog.recordFinished w'.log (settle now c.run) with ⟨log, cause | ⟨⟩⟩
        · rfl
        · rfl
      | cons s steps =>
        rw [fire_of_steps_left hended hread hsteps, fire_of_steps_left hended hhistory hsteps]
        rfl

end Trigger

namespace Handling

/-! ### What goes with an ending -/

/-- A decision that the run has ended. -/
def Answer.isEnding : Answer → Bool
  | .decided (.ok .ended) _ => true
  | _ => false

/-- What listeners were told with an answer. -/
def Answer.notices : Answer → List Notice
  | .decided _ notices => notices
  | .edited _ | .silent => []

/-- How many decisions were that the run has ended. -/
def endings (answers : List Answer) : Nat := answers.countP Answer.isEnding

/-- How often a listener was told something. -/
def timesTold (listener : Nat) (answers : List Answer) : Nat :=
  (answers.flatMap Answer.notices).countP fun notice => decide (notice.listener = listener)

/-- Between two states of a log, each ending has gone with one record that was written, one notice
to each listener, and one step of both counters. -/
structure Tallied (listeners : Nat) (start behind : Watched σ) (answers : List Answer)
    (journal : Journal) : Prop where
  written_eq : behind.written.length = start.written.length + endings answers
  told_eq : ∀ listener < listeners, timesTold listener answers = endings answers
  ended_eq : journal.total .machineEnded = endings answers
  skipped_eq : journal.total .compensationSkipped = endings answers

variable {listeners : Nat} {start middle behind : Watched σ}

theorem endings_append (answers more : List Answer) :
    endings (answers ++ more) = endings answers + endings more :=
  List.countP_append

theorem timesTold_append (listener : Nat) (answers more : List Answer) :
    timesTold listener (answers ++ more) = timesTold listener answers + timesTold listener more := by
  rw [timesTold, List.flatMap_append, List.countP_append]
  rfl

theorem Tallied.append {answers more : List Answer} {journal rest : Journal}
    (h : Tallied listeners start middle answers journal)
    (hmore : Tallied listeners middle behind more rest) :
    Tallied listeners start behind (answers ++ more) (journal ++ rest) where
  written_eq := by rw [hmore.written_eq, h.written_eq, endings_append, Nat.add_assoc]
  told_eq listener hlistener := by
    rw [timesTold_append, endings_append, h.told_eq listener hlistener,
      hmore.told_eq listener hlistener]
  ended_eq := by rw [Journal.total_append, endings_append, h.ended_eq, hmore.ended_eq]
  skipped_eq := by rw [Journal.total_append, endings_append, h.skipped_eq, hmore.skipped_eq]

/-- What neither writes a record nor tells or counts anything leaves the tally as it is. -/
theorem Tallied.of_silent {answer : Answer} {journal : Journal}
    (hwritten : behind.written = start.written) (hending : answer.isEnding = false)
    (hnotices : answer.notices = []) (hended : journal.total .machineEnded = 0)
    (hskipped : journal.total .compensationSkipped = 0) :
    Tallied listeners start behind [answer] journal := by
  have hnone : endings [answer] = 0 := by simp [endings, hending]
  have hsilent : ∀ listener, timesTold listener [answer] = 0 := by
    intro listener
    simp [timesTold, hnotices]
  exact ⟨by rw [hwritten, hnone, Nat.add_zero], fun listener _ => by rw [hsilent, hnone],
    by rw [hended, hnone], by rw [hskipped, hnone]⟩

/-- Each listener is told once that a run has ended. -/
theorem timesTold_notices {t : Terminator σ} (run : Run) {listener : Nat}
    (hlistener : listener < t.listeners) (result : Except Error Decision) :
    timesTold listener [.decided result (t.notices run)] = 1 := by
  have hcount : (List.range t.listeners).count listener = 1 := by
    rw [List.count_range, if_pos hlistener]
  rw [timesTold, List.flatMap_singleton, Answer.notices, Terminator.notices, List.countP_map,
    ← hcount, List.count]
  refine List.countP_congr fun other _ => ?_
  simp

/-- A decision tallies. -/
theorem tallied_fired {policy : Policy} {now : Timestamp} {c : Context} {w : Watched σ}
    {e : Effect (Watched σ) Decision}
    (hfired : (Trigger.onLog stateLog.watched policy listeners).Fired now c w e) :
    Tallied listeners w e.log [.decided e.answer e.notices] e.journal := by
  cases hfired with
  | refused => exact .of_silent rfl rfl rfl rfl rfl
  | unread _ w' cause hread => exact .of_silent (Trigger.written_history hread) rfl rfl rfl rfl
  | compensating _ w' history hread _ =>
    exact .of_silent (Trigger.written_history hread) rfl rfl rfl rfl
  | unwritten _ w' history w'' cause hread _ hwrite =>
    have hwritten : w''.written = w'.written := StateLog.written_of_error hwrite
    exact .of_silent (hwritten.trans (Trigger.written_history hread)) rfl rfl rfl rfl
  | ended _ w' history w'' hread _ hwrite =>
    -- the one way out in which a record is written and anybody is told
    obtain ⟨hwritten, -⟩ := StateLog.written_of_ok hwrite
    rw [Trigger.written_history hread] at hwritten
    refine ⟨?_, ?_, rfl, rfl⟩
    · rw [hwritten, List.length_append]
      rfl
    · intro listener hlistener
      exact timesTold_notices _ hlistener _

/-- Whatever others do to the log is not noted. -/
def Unnoted (s : Handling (Watched σ)) : Command (Watched σ) → Prop
  | .meanwhile log => log.calls = s.log.calls
  | .fire _ | .edit _ => True

/-- Behind every run the endings tally. -/
theorem tallied_run {policy : Policy} {start : Handling (Watched σ)}
    {commands : List (Command (Watched σ))}
    (hrun :
      Outcome.Admits (step (.onLog stateLog.watched policy listeners)) Unnoted start commands) :
    let o := Outcome.run (step (.onLog stateLog.watched policy listeners)) start commands
    Tallied listeners start.log o.state.log o.answer o.journal := by
  induction commands generalizing start with
  | nil => exact ⟨rfl, fun _ _ => rfl, rfl, rfl⟩
  | cons command commands ih =>
    let here := step (.onLog stateLog.watched policy listeners) start command
    have hhere : Tallied listeners start.log here.state.log [here.answer] here.journal := by
      cases command with
      | fire now => exact tallied_fired (Trigger.fired _ now start.context start.log)
      | edit change => exact .of_silent rfl rfl rfl rfl rfl
      | meanwhile log =>
        have hwritten : log.written = start.log.written :=
          congrArg (List.filterMap StateLog.Call.written?) hrun.1
        exact .of_silent hwritten rfl rfl rfl rfl
    exact hhere.append (ih hrun.2)

/-! ### At most one ending -/

section Once

variable {τ : Type} {t : Trigger τ} {s : Handling τ}

theorem ended_edit {c : Context} (hended : c.ended = true) (change : Context.Edit) :
    (c.edit change).1.ended = true := by
  cases change with
  | setVariable name value =>
    cases value with
    | none => exact hended
    | some value => exact hended
  | markEnded => rfl
  | setCurrent | setTriggerState | capture | takeCaptured | setStatus | setCompensation
  | setException | pushStep | clearHistory | markStep | stack | removeVariable => exact hended

/-- A context through which the run has ended stays so, and there is no further ending. -/
theorem isEnding_step_of_ended (hended : s.context.ended = true) (command : Command τ) :
    (step t s command).answer.isEnding = false ∧
      (step t s command).state.context.ended = true := by
  cases command with
  | fire now =>
    rw [step, Trigger.fire_of_ended hended]
    exact ⟨rfl, hended⟩
  | edit change => exact ⟨rfl, ended_edit hended change⟩
  | meanwhile log => exact ⟨rfl, hended⟩

theorem ended_of_isEnding {command : Command τ}
    (hending : (step t s command).answer.isEnding = true) :
    (step t s command).state.context.ended = true := by
  cases command with
  | edit | meanwhile => exact nomatch hending
  | fire now =>
    have hfired := t.fired now s.context s.log
    rw [step] at hending ⊢
    dsimp only at hending ⊢
    generalize t.fire now s.context s.log = e at hfired hending ⊢
    cases hfired with
    | refused | unread | unwritten | compensating => exact nomatch hending
    | ended => rfl

/-- Once the run has ended there are no further endings. -/
theorem endings_run_of_ended {start : Handling τ} (hended : start.context.ended = true)
    (commands : List (Command τ)) :
    endings (Outcome.run (step t) start commands).answer = 0 ∧
      (Outcome.run (step t) start commands).state.context.ended = true := by
  induction commands generalizing start with
  | nil => exact ⟨rfl, hended⟩
  | cons command commands ih =>
    obtain ⟨hnone, hstill⟩ := isEnding_step_of_ended (t := t) hended command
    obtain ⟨hrest, hbehind⟩ := ih hstill
    refine ⟨?_, hbehind⟩
    rw [Outcome.run, endings, List.countP_cons_of_neg (by simp [hnone])]
    exact hrest

/-- A run ends at most once, and then through its context. -/
theorem endings_run_le (start : Handling τ) (commands : List (Command τ)) :
    endings (Outcome.run (step t) start commands).answer ≤ 1 ∧
      (0 < endings (Outcome.run (step t) start commands).answer →
        (Outcome.run (step t) start commands).state.context.ended = true) := by
  induction commands generalizing start with
  | nil => exact ⟨Nat.zero_le 1, fun hpos => nomatch hpos⟩
  | cons command commands ih =>
    rw [Outcome.run, endings]
    cases hending : (step t start command).answer.isEnding with
    | true =>
      -- the first ending is the only one, as the context has ended behind it
      obtain ⟨hrest, hbehind⟩ := endings_run_of_ended (ended_of_isEnding hending) commands
      rw [List.countP_cons_of_pos hending]
      exact ⟨Nat.le_of_eq (congrArg (· + 1) hrest), fun _ => hbehind⟩
    | false =>
      rw [List.countP_cons_of_neg (by simp [hending])]
      exact ih _

end Once

/-- Handle a run in any order with decisions and changes, over a state log that others may leave
in any state and whose calls may fail at any time. There is one decision at most that the run has
ended. As many records have been written for the run, as many times every listener was told, and
as many times each of the two counters went up. With that decision the record that the context
has, the last one written, and the one that every listener is told are the same, and the log is as
its writing has left it. From then on every attempt to decide is refused, and changes nothing in
the context or in the log, makes no call, tells nobody and counts nothing. -/
theorem ends_once (stateLog : StateLog σ) (policy : Policy) (listeners : Nat)
    {start : Handling (Watched σ)} {commands : List (Command (Watched σ))}
    (hrun :
      Outcome.Admits (step (.onLog stateLog.watched policy listeners)) Unnoted start commands) :
    let t := Trigger.onLog stateLog.watched policy listeners
    let o := Outcome.run (step t) start commands
    let s := o.state
    endings o.answer ≤ 1 ∧
      s.log.written.length = start.log.written.length + endings o.answer ∧
      (∀ listener < listeners, timesTold listener o.answer = endings o.answer) ∧
      o.journal.total .machineEnded = endings o.answer ∧
      o.journal.total .compensationSkipped = endings o.answer ∧
      ∀ now : Timestamp,
        let e := t.fire now s.context s.log
        (e.answer = .ok .ended →
          e.log.written = s.log.written ++ [e.context.run] ∧
            (∃ before, stateLog.recordFinished before e.context.run = (e.log.log, .ok ())) ∧
            e.notices = (List.range listeners).map fun listener => ⟨listener, e.context.run⟩) ∧
        (0 < endings o.answer →
          e = { context := s.context
                log := s.log
                answer := .error (.alreadyEnded s.context.run.id) }) := by
  intro t o s
  obtain ⟨hwritten, htold, hended, hskipped⟩ := tallied_run hrun
  obtain ⟨honce, hclosed⟩ := endings_run_le (t := t) start commands
  refine ⟨honce, hwritten, htold, hended, hskipped, fun now => ⟨?_, ?_⟩⟩
  · have hfired := t.fired now s.context s.log
    intro hanswer
    generalize t.fire now s.context s.log = e at hfired hanswer ⊢
    cases hfired with
    | refused | unread | unwritten | compensating => exact nomatch hanswer
    | ended _ w' history w'' hread _ hwrite =>
      obtain ⟨hlast, hleft⟩ := StateLog.written_of_ok hwrite
      rw [Trigger.written_history hread] at hlast
      exact ⟨hlast, ⟨w'.log, hleft⟩, rfl⟩
  · intro hpos
    exact Trigger.fire_of_ended (hclosed hpos) t now s.log

/-- A run without anything to undo is to end while records cannot be written, and again when they
can. By then a failure has been captured and a step added that need not be undone. A third attempt
is refused. -/
theorem ends_once_behind_refused_write :
    let t := Trigger.onLog SwitchedLog.stateLog.watched .needed 2
    let start : Handling (Watched SwitchedLog) :=
      ⟨Trigger.brokenOff none none, ⟨⟨.empty, false, true⟩, []⟩⟩
    let refused := (step t start (.fire (.ofUnixMillis 1))).state
    let commands : List (Command (Watched SwitchedLog)) :=
      [.fire (.ofUnixMillis 1), .meanwhile ⟨.empty, refused.log.calls⟩,
        .edit (.capture ⟨none, "later"⟩),
        .edit (.pushStep (.ofKind "B" "route" .scriptTask .succeeded (.ofUnixMillis 2))),
        .fire (.ofUnixMillis 3)]
    let o := Outcome.run (step t) start commands
    Outcome.Admits (step t) Unnoted start commands ∧ endings o.answer = 1 ∧
      o.state.log.written.length = 1 ∧ timesTold 0 o.answer = 1 ∧ timesTold 1 o.answer = 1 ∧
      t.fire (.ofUnixMillis 4) o.state.context o.state.log =
        { context := o.state.context
          log := o.state.log
          answer := .error (.alreadyEnded o.state.context.run.id) } := by
  intro t start refused commands o
  have hrun : Outcome.Admits (step t) Unnoted start commands :=
    ⟨trivial, rfl, trivial, trivial, trivial, trivial⟩
  have hone : endings o.answer = 1 := rfl
  obtain ⟨-, hwritten, htold, -, -, hlater⟩ := ends_once SwitchedLog.stateLog .needed 2 hrun
  refine ⟨hrun, hone, hwritten, htold 0 (by decide), htold 1 (by decide), ?_⟩
  exact (hlater (.ofUnixMillis 4)).2 (hone ▸ Nat.one_pos)

end Handling

end GlobalTransaction.Saga
