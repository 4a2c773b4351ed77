import GlobalTransaction.Proofs.Saga.Conclusion
import GlobalTransaction.Proofs.Schedules
import Mathlib.Data.Set.Card

/-!
# Runs that share a log

Several runs are worked on in any order, each through a context of its own, over one log in memory.
What a context reads in the log is the history of its own run, and what is written on its account are
steps and the record of that run. So the runs do not get in each other's way.

## Main definitions

* `Saga.Fleet` — contexts that share a log in memory
* `Fleet.Action`, `Handling.act`, `Fleet.step` — what is done with one of the contexts
* `Handling.Confined` — what an action can leave in the log
* `Handling.Shows`, `Fleet.Shows` — a context is the same beside two logs that have the same entries
  for its run

## Main results

* `Trigger.fire_congr` — decisions depend on the log by the history of the run
* `Handling.confined_act` — actions leave nothing in the log but what belongs to the run
* `Fleet.shows_alone` — a context among others beside the same context alone
* `Fleet.isSome_finished_run` — which runs have a record
* `Fleet.runs_undisturbed` — every run goes as it would go alone
-/

set_option autoImplicit false

namespace GlobalTransaction.Saga

/-- Contexts that share a log in memory. -/
structure Fleet (ι : Type) where
  contexts : ι → Context
  log : MemoryLog

/-- What can be done with one of the contexts. -/
inductive Fleet.Action
  | fire (now : Timestamp)
  | edit (change : Context.Edit)
  /-- A step is recorded for the run of the context. -/
  | record (executed : Step)

/-! ### Decisions over a log in memory -/

namespace Trigger

open Handling (Answer)

variable {c : Context}

theorem history_inMemory (listeners : Nat) (c : Context) (log : MemoryLog) :
    (inMemory listeners).history c log =
      (log, .ok (if c.run.history.isEmpty then log.history c.run.id else c.run.history)) := by
  rw [history]
  split
  · rfl
  · rfl

/-- What is decided about a run depends on the log only by the history that it has for the run. -/
theorem fire_congr (listeners : Nat) {log other : MemoryLog}
    (h : log.history c.run.id = other.history c.run.id) (now : Timestamp) :
    let e := (inMemory listeners).fire now c log
    let e' := (inMemory listeners).fire now c other
    e.context = e'.context ∧ e.answer = e'.answer ∧ e.notices = e'.notices := by
  cases hended : c.ended with
  | true =>
    rw [fire_of_ended hended, fire_of_ended hended]
    exact ⟨rfl, rfl, rfl⟩
  | false =>
    have hread := history_inMemory listeners c log
    have hread' := history_inMemory listeners c other
    rw [h] at hread
    cases hsteps : (inMemory listeners).policy c
        (if c.run.history.isEmpty then other.history c.run.id else c.run.history) with
    | nil =>
      rw [fire_of_nothing_left hended hread hsteps, fire_of_nothing_left hended hread' hsteps]
      exact ⟨rfl, rfl, rfl⟩
    | cons s steps =>
      rw [fire_of_steps_left hended hread hsteps, fire_of_steps_left hended hread' hsteps]
      exact ⟨rfl, rfl, rfl⟩

/-- A decision that the run has ended leaves its record in the log, any other one leaves nothing. -/
theorem log_fire (listeners : Nat) (now : Timestamp) (c : Context) (log : MemoryLog) :
    let e := (inMemory listeners).fire now c log
    e.context.run.id = c.run.id ∧
      e.log =
        if (Answer.decided e.answer e.notices).isEnding then log.recordFinished e.context.run
        else log := by
  have hfired := (inMemory listeners).fired now c log
  have hread := history_inMemory listeners c log
  intro e
  change Fired _ _ _ _ e at hfired
  generalize e = e at hfired ⊢
  cases hfired with
  | refused => exact ⟨rfl, rfl⟩
  | unread _ _ _ hread' => exact nomatch hread.symm.trans hread'
  | unwritten _ _ _ _ _ _ _ hwrite => exact nomatch hwrite
  | ended _ log' _ log'' hread' _ hwrite =>
    obtain ⟨rfl, -⟩ := Prod.mk.inj (hread.symm.trans hread')
    obtain ⟨rfl, -⟩ := Prod.mk.inj hwrite
    exact ⟨rfl, rfl⟩
  | compensating _ log' _ hread' =>
    obtain ⟨rfl, -⟩ := Prod.mk.inj (hread.symm.trans hread')
    exact ⟨rfl, rfl⟩

end Trigger

theorem Context.id_edit (c : Context) (change : Edit) : (c.edit change).1.run.id = c.run.id := by
  cases change with
  | setVariable name value => cases value <;> rfl
  | _ => rfl

/-! ### One context -/

namespace Handling

open Fleet (Action)

variable {s t : Handling MemoryLog}

/-- An action on a context and the log. -/
def act (listeners : Nat) (s : Handling MemoryLog) :
    Action → Outcome (Handling MemoryLog) Answer
  | .fire now => step (.inMemory listeners) s (.fire now)
  | .edit change => step (.inMemory listeners) s (.edit change)
  | .record executed =>
    step (.inMemory listeners) s (.meanwhile (s.log.record s.context.run.id executed))

/-- What an action can leave in the log: nothing, a step of the run, or the record of the run. -/
inductive Confined (s : Handling MemoryLog) (o : Outcome (Handling MemoryLog) Answer) : Prop
  | quiet (hending : o.answer.isEnding = false) (hlog : o.state.log = s.log)
  | recorded (hending : o.answer.isEnding = false) (executed : Step)
      (hlog : o.state.log = s.log.record s.context.run.id executed)
  | ended (hending : o.answer.isEnding = true)
      (hlog : o.state.log = s.log.recordFinished o.state.context.run)

theorem id_act (listeners : Nat) (s : Handling MemoryLog) (action : Action) :
    (s.act listeners action).state.context.run.id = s.context.run.id := by
  cases action with
  | fire now => exact (Trigger.log_fire listeners now s.context s.log).1
  | edit change => exact s.context.id_edit change
  | record executed => rfl

theorem confined_act (listeners : Nat) (s : Handling MemoryLog) (action : Action) :
    s.Confined (s.act listeners action) := by
  cases action with
  | fire now =>
    have hlog := (Trigger.log_fire listeners now s.context s.log).2
    split at hlog
    next hending => exact .ended hending hlog
    next hopen => exact .quiet (Bool.eq_false_iff.2 hopen) hlog
  | edit change => exact .quiet rfl rfl
  | record executed => exact .recorded rfl executed rfl

/-- A run gets its record with the decision that it has ended. -/
theorem isSome_finished_act (listeners : Nat) (s : Handling MemoryLog) (action : Action)
    (id : InstanceId) :
    ((s.act listeners action).state.log.finished id).isSome = true ↔
      (s.context.run.id = id ∧ (s.act listeners action).answer.isEnding = true) ∨
        (s.log.finished id).isSome = true := by
  have hid := id_act listeners s action
  cases confined_act listeners s action with
  | quiet hending hlog => simp [hending, hlog]
  | recorded hending executed hlog =>
    rw [hlog, hending]
    simp [MemoryLog.record, MemoryLog.finished]
  | ended hending hlog =>
    rw [hlog, MemoryLog.finished_recordFinished, hid, hending]
    by_cases h : id = s.context.run.id
    · simp [h]
    · simp [h, Ne.symm h]

section Shows

variable {id : InstanceId}

/-- A context of a run is the same beside two logs, and these have the same entries for the run. -/
structure Shows (id : InstanceId) (s t : Handling MemoryLog) : Prop where
  id_eq : s.context.run.id = id
  context_eq : s.context = t.context
  history_eq : s.log.history id = t.log.history id
  finished_eq : s.log.finished id = t.log.finished id

/-- The same action gets the same answer beside both logs, and leaves the same entries. -/
theorem Shows.act (h : s.Shows id t) (listeners : Nat) (action : Action) :
    (s.act listeners action).answer = (t.act listeners action).answer ∧
      (s.act listeners action).state.Shows id (t.act listeners action).state := by
  obtain ⟨c, log⟩ := s
  obtain ⟨c, log'⟩ := t
  obtain ⟨rfl, rfl, hhistory, hfinished⟩ := h
  cases action with
  | fire now =>
    obtain ⟨hcontext, hanswer, hnotices⟩ := Trigger.fire_congr listeners hhistory now
    obtain ⟨hid, hlog⟩ := Trigger.log_fire listeners now c log
    obtain ⟨-, hlog'⟩ := Trigger.log_fire listeners now c log'
    rw [← hanswer, ← hcontext, ← hnotices] at hlog'
    refine ⟨congrArg₂ Answer.decided hanswer hnotices, ⟨hid, hcontext, ?_, ?_⟩⟩
    · simp only [Handling.act, step, hlog, hlog']
      split
      · exact hhistory
      · exact hhistory
    · simp only [Handling.act, step, hlog, hlog']
      split
      · simp only [MemoryLog.finished_recordFinished, hid]
        rfl
      · exact hfinished
  | edit change => exact ⟨rfl, c.id_edit change, rfl, hhistory, hfinished⟩
  | record executed =>
    refine ⟨rfl, rfl, rfl, ?_, hfinished⟩
    simp only [Handling.act, step, MemoryLog.history_record, hhistory]

/-- What others leave in the log makes no difference to a context, as long as that belongs to
another run. -/
theorem Shows.of_confined (h : s.Shows id t) (other : Handling MemoryLog)
    {o : Outcome (Handling MemoryLog) Answer} (hother : other.log = s.log)
    (hconfined : other.Confined o) (hid : other.context.run.id ≠ id)
    (hsame : o.state.context.run.id = other.context.run.id) :
    Shows id ⟨s.context, o.state.log⟩ t := by
  obtain ⟨hown, hcontext, hhistory, hfinished⟩ := h
  refine ⟨hown, hcontext, ?_, ?_⟩
  · rw [← hhistory, ← hother]
    cases hconfined with
    | quiet _ hlog => rw [hlog]
    | recorded _ executed hlog => rw [hlog, MemoryLog.history_record, if_neg hid.symm]
    | ended _ hlog => rw [hlog]; rfl
  · rw [← hfinished, ← hother]
    cases hconfined with
    | quiet _ hlog => rw [hlog]
    | recorded _ executed hlog => rw [hlog]; rfl
    | ended _ hlog => rw [hlog, MemoryLog.finished_recordFinished, hsame, if_neg hid.symm]

end Shows

end Handling

/-! ### Contexts that share a log -/

/-- A log in memory has as many records as runs that have one. -/
theorem MemoryLog.finishedCount_eq_ncard {log : MemoryLog} (h : log.finishedRuns.keys.Nodup) :
    log.finishedCount = {id | (log.finished id).isSome = true}.ncard := by
  have hkeys : {id | (log.finished id).isSome = true} = (log.finishedRuns.keys.toFinset : Set _) := by
    ext id
    rw [Set.mem_ofPred_eq, ← Option.ne_none_iff_isSome, Finset.mem_coe, List.mem_toFinset]
    exact Table.lookup_eq_none_iff.not_left
  rw [hkeys, Set.ncard_coe_finset, List.toFinset_card_of_nodup h, Table.keys, List.length_map]
  rfl

namespace Fleet

variable {ι : Type} [DecidableEq ι] {listeners : ι → Nat}

/-- One of the contexts, and the log. -/
def handling (f : Fleet ι) (who : ι) : Handling MemoryLog := ⟨f.contexts who, f.log⟩

/-- The run of each context. -/
def ids (f : Fleet ι) (who : ι) : InstanceId := (f.contexts who).run.id

/-- The effect of one action. Each context is worked on with a trigger of its own, which has a
number of listeners. -/
def step (listeners : ι → Nat) (f : Fleet ι) (turn : ι × Action) :
    Outcome (Fleet ι) Handling.Answer :=
  let here := (f.handling turn.1).act (listeners turn.1) turn.2
  { state := ⟨Function.update f.contexts turn.1 here.state.context, here.state.log⟩
    answer := here.answer
    journal := here.journal }

theorem handling_step_self (f : Fleet ι) (who : ι) (action : Action) :
    (step listeners f (who, action)).state.handling who =
      ((f.handling who).act (listeners who) action).state := by
  simp [handling, step]

theorem handling_step_of_ne (f : Fleet ι) {who other : ι} (h : other ≠ who) (action : Action) :
    (step listeners f (other, action)).state.handling who =
      ⟨f.contexts who, ((f.handling other).act (listeners other) action).state.log⟩ := by
  simp [handling, step, h.symm]

/-- Every context keeps its run. -/
theorem ids_step (f : Fleet ι) (turn : ι × Action) : (step listeners f turn).state.ids = f.ids := by
  funext who
  by_cases h : who = turn.1
  · subst h
    simp [ids, step, Handling.id_act, handling]
  · simp [ids, step, h]

/-- A context of a fleet is the same alone, with the same entries for its run. -/
structure Shows (ids : ι → InstanceId) (who : ι) (f : Fleet ι) (t : Handling MemoryLog) : Prop where
  ids_eq : f.ids = ids
  shows : (f.handling who).Shows (ids who) t

section Shows

variable {ids : ι → InstanceId} {who : ι} {f : Fleet ι} {t : Handling MemoryLog}

theorem Shows.step_self (h : f.Shows ids who t) (action : Action) :
    (step listeners f (who, action)).answer = (t.act (listeners who) action).answer ∧
      (step listeners f (who, action)).state.Shows ids who (t.act (listeners who) action).state := by
  obtain ⟨hanswer, hbehind⟩ := h.shows.act (listeners who) action
  refine ⟨hanswer, (ids_step f _).trans h.ids_eq, ?_⟩
  rw [handling_step_self]
  exact hbehind

/-- What is done with another context makes no difference. -/
theorem Shows.step_of_ne (h : f.Shows ids who t) (hids : Function.Injective ids) {other : ι}
    (hne : other ≠ who) (action : Action) :
    (step listeners f (other, action)).state.Shows ids who t := by
  refine ⟨(ids_step f _).trans h.ids_eq, ?_⟩
  rw [handling_step_of_ne f hne]
  have hid : f.ids other ≠ ids who := by
    rw [h.ids_eq]
    exact hids.ne hne
  exact h.shows.of_confined (f.handling other) rfl (Handling.confined_act _ _ action) hid
    (Handling.id_act _ _ action)

/-- A context of a fleet goes as it goes alone with the log: it gets the same answers, and comes to
the same state and the same entries of the log. -/
theorem shows_alone {start : Fleet ι} (hids : Function.Injective start.ids)
    (schedule : Schedule ι Action) (who : ι) :
    let alone := Outcome.run (Handling.act (listeners who)) (start.handling who)
      (schedule.commandsOf who)
    Outcome.answersTo (step listeners) start schedule.signed who = alone.answer ∧
      (Outcome.run (step listeners) start schedule).state.Shows start.ids who alone.state := by
  -- alone there is only the own context, and the name of the client says nothing
  let own (s : Handling MemoryLog) (turn : ι × Action) := s.act (listeners turn.1) turn.2
  have halone : (Outcome.answersTo (step listeners) start schedule.signed who).map id =
        (Outcome.run own (start.handling who) (schedule.signed.commandsOf who)).answer.map id ∧
      (Outcome.run (step listeners) start schedule.signed.commands).state.Shows start.ids who
        (Outcome.run own (start.handling who) (schedule.signed.commandsOf who)).state := by
    refine Outcome.answersTo_eq_alone ?_ ?_ ⟨rfl, rfl, rfl, rfl, rfl⟩
    · rintro f t ⟨other, action⟩ hmem hshows
      obtain rfl : other = who := Schedule.eq_of_mem_signed hmem
      exact hshows.step_self action
    · rintro f t other ⟨_, action⟩ hne hmem hshows
      obtain rfl : _ = other := Schedule.eq_of_mem_signed hmem
      exact hshows.step_of_ne hids hne action
  rw [List.map_id, List.map_id, Schedule.commandsOf_signed, Schedule.commands_signed,
    Outcome.run_map] at halone
  exact halone

end Shows

/-- A run has a record exactly if it had one before, or a decision was that it has ended. -/
theorem isSome_finished_run (start : Fleet ι) (schedule : Schedule ι Action) (id : InstanceId) :
    ((Outcome.run (step listeners) start schedule).state.log.finished id).isSome = true ↔
      (start.log.finished id).isSome = true ∨
        ∃ who, start.ids who = id ∧
          ∃ answer ∈ Outcome.answersTo (step listeners) start schedule.signed who,
            answer.isEnding = true := by
  -- a record that is there after the first turn was made in it, or had been there
  induction schedule generalizing start with
  | nil => simp [Outcome.run, Outcome.answersTo, Schedule.signed]
  | cons turn schedule ih =>
    obtain ⟨other, action⟩ := turn
    rw [Outcome.run, ih, ids_step]
    simp only [Schedule.signed, List.map_cons, Outcome.exists_mem_answersTo_cons]
    have hhere : ((step listeners start (other, action)).state.log.finished id).isSome = true ↔
        (start.ids other = id ∧ (step listeners start (other, action)).answer.isEnding = true) ∨
          (start.log.finished id).isSome = true :=
      Handling.isSome_finished_act (listeners other) (start.handling other) action id
    rw [hhere]
    constructor
    · rintro ((⟨hid, hending⟩ | hbefore) | ⟨who, hid, hrest⟩)
      · exact .inr ⟨other, hid, .inl ⟨rfl, hending⟩⟩
      · exact .inl hbefore
      · exact .inr ⟨who, hid, .inr hrest⟩
    · rintro (hbefore | ⟨who, hid, ⟨rfl, hending⟩ | hrest⟩)
      · exact .inl (.inr hbefore)
      · exact .inl (.inl ⟨hid, hending⟩)
      · exact .inr ⟨who, hid, hrest⟩

/-- No run has two records. -/
theorem nodup_keys_run {start : Fleet ι} (h : start.log.finishedRuns.keys.Nodup)
    (schedule : Schedule ι Action) :
    (Outcome.run (step listeners) start schedule).state.log.finishedRuns.keys.Nodup := by
  refine Outcome.run_induction (P := fun f : Fleet ι => f.log.finishedRuns.keys.Nodup) ?_ h schedule
  rintro f ⟨who, action⟩ hf
  dsimp only [step]
  cases Handling.confined_act (listeners who) (f.handling who) action with
  | quiet _ hlog => rw [hlog]; exact hf
  | recorded _ executed hlog => rw [hlog]; exact hf
  | ended _ hlog => rw [hlog]; exact Table.nodup_keys_insert hf _ _

/-- Take contexts of different runs that share a log in memory, which is empty at first, and any
order in which it is decided about them, they are changed, and steps are recorded for their runs.
Each of them gets the answers that it would get alone, and comes to the state to which it would come
alone. For its run the log has the same history and the same record as it would have then. In the
end the log has as many records as there are runs of which it was decided that they have ended. -/
theorem runs_undisturbed (listeners : ι → Nat) (contexts : ι → Context)
    (hids : Function.Injective fun who => (contexts who).run.id) (schedule : Schedule ι Action) :
    let start : Fleet ι := ⟨contexts, .empty⟩
    let behind := (Outcome.run (step listeners) start schedule).state
    let answers := Outcome.answersTo (step listeners) start schedule.signed
    (∀ who,
      let id := (contexts who).run.id
      let alone := Outcome.run (Handling.act (listeners who)) ⟨contexts who, .empty⟩
        (schedule.commandsOf who)
      answers who = alone.answer ∧ behind.contexts who = alone.state.context ∧
        behind.log.history id = alone.state.log.history id ∧
        behind.log.finished id = alone.state.log.finished id) ∧
    behind.log.finishedCount =
      {id | ∃ who, (contexts who).run.id = id ∧
        ∃ answer ∈ answers who, answer.isEnding = true}.ncard := by
  intro start behind answers
  constructor
  · intro who id alone
    have hstart : Function.Injective start.ids := hids
    obtain ⟨hanswers, -, hshows⟩ := shows_alone hstart schedule who
    exact ⟨hanswers, hshows.context_eq, hshows.history_eq, hshows.finished_eq⟩
  · have hnodup : start.log.finishedRuns.keys.Nodup := List.nodup_nil
    rw [MemoryLog.finishedCount_eq_ncard (nodup_keys_run hnodup schedule)]
    refine congrArg Set.ncard (Set.ext fun id => ?_)
    refine (isSome_finished_run start schedule id).trans (or_iff_right ?_)
    exact Bool.false_ne_true

/-- Three runs that begin. -/
def transfers (who : Fin 3) : Context :=
  .ofRun (.start ⟨.replicate 16 (.ofNat who)⟩ "transfer" (.ofUnixMillis 0))

/-- The step of a run that must be undone. -/
def debit : Step := .compensable "A" "debit" "undo" (.ofUnixMillis 1)

/-- The first run gives up the steps of its own record behind those of the log, and goes back by the
log. In between it is decided that the two others have ended. -/
def overlap : Schedule (Fin 3) Action :=
  let credit := Step.ofKind "A" "credit" .serviceTask .failed (.ofUnixMillis 2)
  [(0, .record debit), (2, .fire (.ofUnixMillis 3)), (0, .edit (.pushStep credit)),
    (1, .record credit), (0, .edit .clearHistory), (1, .fire (.ofUnixMillis 1)),
    (0, .fire (.ofUnixMillis 4)), (2, .fire (.ofUnixMillis 5)), (0, .edit (.stack .pop))]

/-- The first run is compensated by the history that was recorded for it, in the middle of the others.
The two others have ended, and one of them is refused when it comes again. -/
theorem overlapping_runs_undisturbed :
    let behind := (Outcome.run (step fun _ => 1) ⟨transfers, .empty⟩ overlap).state
    let answers := Outcome.answersTo (step fun _ => 1) ⟨transfers, .empty⟩ overlap.signed
    (Function.Injective fun who => (transfers who).run.id) ∧
      answers 0 =
        [.silent, .edited .done, .edited .done, .decided (.ok (.compensating 1)) [],
          .edited (.stack (.top (some debit)))] ∧
      behind.log.history (transfers 0).run.id = [debit] ∧
      behind.log.finished (transfers 0).run.id = none ∧ behind.log.finishedCount = 2 ∧
      {id | ∃ who, (transfers who).run.id = id ∧
        ∃ answer ∈ answers who, answer.isEnding = true}.ncard = 2 := by
  have hids : Function.Injective fun who => (transfers who).run.id := by
    unfold Function.Injective
    decide
  obtain ⟨hruns, hcount⟩ := runs_undisturbed (fun _ => 1) transfers hids overlap
  obtain ⟨hanswers, -, hhistory, hfinished⟩ := hruns 0
  have htwo : (Outcome.run (step fun _ => 1) ⟨transfers, .empty⟩ overlap).state.log.finishedCount =
      2 := by decide +kernel
  exact ⟨hids, hanswers, hhistory, hfinished, htwo, hcount.symm.trans htwo⟩

end Fleet

end GlobalTransaction.Saga
