import GlobalTransaction.Proofs.Saga.Handling
import GlobalTransaction.Proofs.Saga.Stack

/-!
# The plan of compensation

While a run is compensated its history goes on: steps are added, steps that were undone are
marked, and it is decided about the run again although the stack is still half full. All the
same, the stack always holds what must be undone of some first part of the history, the last
step on top. A decision to compensate extends that part to the whole history.

## Main definitions

* `Run.position` — the place of a step in the history
* `Step.mark` — a step that has got further on the way back
* `Context.Orderly` — the changes under which the plan is kept
* `Context.Planned` — the stack holds what must be undone of a first part of the history
* `Context.Descends` — steps are popped against the order of the history, none twice

## Main results

* `Context.Planned.edit`, `Context.Planned.fired` — changes and decisions keep the plan
* `Handling.plan_of_run` — the plan behind every run
-/

set_option autoImplicit false

namespace GlobalTransaction.Saga

/-- The place of a step in the history of a run, in which it is known by its identifier. -/
def Run.position (run : Run) (s : Step) : Nat := (run.history.map Step.id).idxOf s.id

/-- Steps with identifiers of their own stand in the history in the order of their places. -/
theorem Run.pairwise_position {run : Run} (hnodup : (run.history.map Step.id).Nodup) :
    run.history.Pairwise fun earlier later => run.position earlier < run.position later := by
  rw [List.pairwise_iff_getElem]
  intro i j hi hj hlt
  have hplace : ∀ k (hk : k < run.history.length), run.position run.history[k] = k := by
    intro k hk
    have hk' : k < (run.history.map Step.id).length := by rwa [List.length_map]
    have hidx := hnodup.idxOf_getElem k hk'
    rw [List.getElem_map] at hidx
    exact hidx
  rw [hplace i hi, hplace j hj]
  exact hlt

namespace Step

/-- The step, with a mark if it has a certain identifier. -/
def mark (stepId : String) (status : Status) (s : Step) : Step :=
  if s.id = stepId then { s with compensation := some status } else s

variable {stepId : String} {status : Status}

theorem id_mark (s : Step) : (s.mark stepId status).id = s.id := by
  rw [mark]
  split
  · rfl
  · rfl

/-- A mark does not bring a step back that need not be undone, unless it takes back that the step
has been undone. -/
theorem needsCompensation_mark {s : Step} (hneeds : s.needsCompensation = false)
    (hkept : s.id = stepId → s.isCompensated → status = .succeeded) :
    (s.mark stepId status).needsCompensation = false := by
  by_cases hid : s.id = stepId
  · rw [mark, if_pos hid]
    cases hdone : s.isCompensated with
    | true =>
      rw [hkept hid hdone]
      simp [needsCompensation, isCompensated]
    | false =>
      -- the step need not be undone for a reason that the mark does not touch
      rw [needsCompensation, hdone, Bool.not_false, Bool.and_true] at hneeds
      cases hmarked : ({ s with compensation := some status } : Step).isCompensated with
      | true => simp [needsCompensation, hmarked]
      | false =>
        rw [needsCompensation, hmarked, Bool.not_false, Bool.and_true]
        exact hneeds
  · rw [mark, if_neg hid]
    exact hneeds

/-- A mark on a step that is not to be undone changes nothing about the steps that are. -/
theorem filter_map_mark {steps : List Step}
    (hoff : stepId ∉ (steps.filter needsCompensation).map Step.id)
    (hkept : ∀ s ∈ steps, s.id = stepId → s.isCompensated → status = .succeeded) :
    (steps.map (mark stepId status)).filter needsCompensation =
      steps.filter needsCompensation := by
  induction steps with
  | nil => rfl
  | cons s steps ih =>
    obtain ⟨hhere, hbehind⟩ := List.forall_mem_cons.1 hkept
    rw [List.map_cons]
    cases hneeds : s.needsCompensation with
    | true =>
      rw [List.filter_cons_of_pos hneeds, List.map_cons, List.mem_cons, not_or] at hoff
      have hsame : s.mark stepId status = s := if_neg (Ne.symm hoff.1)
      rw [hsame, List.filter_cons_of_pos hneeds, List.filter_cons_of_pos hneeds,
        ih hoff.2 hbehind]
    | false =>
      have hneeds' : ¬ s.needsCompensation = true := Bool.eq_false_iff.1 hneeds
      rw [List.filter_cons_of_neg hneeds'] at hoff
      have hmarked : ¬ (s.mark stepId status).needsCompensation = true :=
        Bool.eq_false_iff.1 (needsCompensation_mark hneeds hhere)
      rw [List.filter_cons_of_neg hmarked, List.filter_cons_of_neg hneeds', ih hoff hbehind]

end Step

theorem Run.history_markStep (run : Run) (stepId : String) (status : Status) :
    (run.markStep stepId status).history = run.history.map (Step.mark stepId status) := rfl

namespace Context

/-- The changes that do not disturb compensation. A step is added with an identifier of its own. A
step is marked when it is off the stack, and that it has been undone is not taken back. The
history is not thrown away, and nobody else pushes. -/
def Orderly (c : Context) : Edit → Prop
  | .pushStep s => s.id ∉ c.run.history.map Step.id
  | .markStep stepId status =>
    stepId ∉ c.stackOrEmpty.steps.map Step.id ∧
      ∀ s ∈ c.run.history, s.id = stepId → s.isCompensated → status = .succeeded
  | .clearHistory | .stack (.push _) | .stack (.pushAll _) => False
  | _ => True

/-- The stack holds what must be undone of a first part of the history. -/
structure Planned (c : Context) : Prop where
  ne_nil : c.run.history ≠ []
  nodup : (c.run.history.map Step.id).Nodup
  sound : c.stackOrEmpty.Sound
  stacked : ∃ done rest, c.run.history = done ++ rest ∧
    c.stackOrEmpty.steps = (done.filter Step.needsCompensation).reverse

/-- Steps are popped against the order of the history, and no identifier comes twice. -/
structure Descends (c : Context) : Prop where
  mem : ∀ s ∈ c.stackOrEmpty.steps, s ∈ c.run.history
  nodup : (c.stackOrEmpty.steps.map Step.id).Nodup
  descending : c.stackOrEmpty.steps.Pairwise fun above below =>
    c.run.position below < c.run.position above

variable {c c' : Context}

/-! ### What keeps the plan -/

/-- The plan can stop at an earlier part of the history. -/
theorem Planned.shorten (h : c.Planned) (hhistory : c'.run.history = c.run.history)
    (hsound : c'.stackOrEmpty.Sound)
    (hsteps : ∃ top, c.stackOrEmpty.steps = top ++ c'.stackOrEmpty.steps) : c'.Planned := by
  obtain ⟨done, rest, hsplit, hstacked⟩ := h.stacked
  obtain ⟨top, htop⟩ := hsteps
  -- what is left on the stack are the steps to undo of a first part of `done`
  have hdone : done.filter Step.needsCompensation =
      c'.stackOrEmpty.steps.reverse ++ top.reverse := by
    rw [← List.reverse_append, ← htop, hstacked, List.reverse_reverse]
  obtain ⟨first, second, rfl, hfirst, -⟩ := List.filter_eq_append_iff.1 hdone
  refine ⟨?_, ?_, hsound, first, second ++ rest, ?_, ?_⟩
  · rw [hhistory]
    exact h.ne_nil
  · rw [hhistory]
    exact h.nodup
  · rw [hhistory, hsplit, List.append_assoc]
  · rw [hfirst, List.reverse_reverse]

theorem Planned.of_eq (h : c.Planned) (hhistory : c'.run.history = c.run.history)
    (hstack : c'.stackOrEmpty = c.stackOrEmpty) : c'.Planned :=
  h.shorten hhistory (hstack ▸ h.sound) ⟨[], by rw [hstack, List.nil_append]⟩

theorem Planned.pushStep (h : c.Planned) {s : Step} (hfresh : s.id ∉ c.run.history.map Step.id) :
    (c.edit (.pushStep s)).1.Planned := by
  obtain ⟨done, rest, hsplit, hstacked⟩ := h.stacked
  have hhistory : (c.edit (.pushStep s)).1.run.history = c.run.history ++ [s] := rfl
  -- the new step is not stacked yet, whether it must be undone or not
  refine ⟨?_, ?_, h.sound, done, rest ++ [s], ?_, hstacked⟩
  · rw [hhistory]
    exact List.append_ne_nil_of_right_ne_nil _ (List.cons_ne_nil s [])
  · rw [hhistory, List.map_append, List.nodup_append]
    refine ⟨h.nodup, by simp, ?_⟩
    intro id hid other hother
    rintro rfl
    rw [List.map_singleton, List.mem_singleton] at hother
    exact hfresh (hother ▸ hid)
  · rw [hhistory, hsplit, List.append_assoc]

theorem Planned.markStep (h : c.Planned) {stepId : String} {status : Status}
    (hoff : stepId ∉ c.stackOrEmpty.steps.map Step.id)
    (hkept : ∀ s ∈ c.run.history, s.id = stepId → s.isCompensated → status = .succeeded) :
    (c.edit (.markStep stepId status)).1.Planned := by
  obtain ⟨done, rest, hsplit, hstacked⟩ := h.stacked
  have hhistory : (c.edit (.markStep stepId status)).1.run.history =
      c.run.history.map (Step.mark stepId status) := c.run.history_markStep stepId status
  have hids : Step.id ∘ Step.mark stepId status = Step.id := by
    funext s
    exact s.id_mark
  refine ⟨?_, ?_, h.sound, done.map (Step.mark stepId status),
    rest.map (Step.mark stepId status), ?_, ?_⟩
  · rw [hhistory]
    exact fun hnil => h.ne_nil (List.map_eq_nil_iff.1 hnil)
  · rw [hhistory, List.map_map, hids]
    exact h.nodup
  · rw [hhistory, hsplit, List.map_append]
  · -- the marked step is off the stack, so nothing changes about what is to be undone
    rw [hstacked, List.map_reverse, List.mem_reverse] at hoff
    rw [Step.filter_map_mark hoff fun s hs => hkept s (hsplit ▸ List.mem_append_left rest hs)]
    exact hstacked

/-- Orderly changes keep the plan. -/
theorem Planned.edit (h : c.Planned) {change : Edit} (hallowed : c.Orderly change) :
    (c.edit change).1.Planned := by
  cases change with
  | pushStep s => exact h.pushStep hallowed
  | markStep stepId status => exact h.markStep hallowed.1 hallowed.2
  | clearHistory => exact absurd hallowed id
  | stack command =>
    refine h.shorten rfl (h.sound.step command)
      (CompensationStack.steps_eq_append_step ?_ ?_)
    · rintro s rfl
      exact hallowed
    · rintro steps rfl
      exact hallowed
  | setVariable name value =>
    cases value with
    | none => exact h
    | some value => exact h.of_eq rfl rfl
  | setCurrent | setTriggerState | capture | takeCaptured | setStatus | setCompensation
  | setException | removeVariable | markEnded => exact h.of_eq rfl rfl

/-! ### Decisions -/

/-- Of the steps to undo, those behind the stacked part are new to the stack. -/
theorem Planned.newSteps_eq (h : c.Planned) {done rest : List Step}
    (hsplit : c.run.history = done ++ rest)
    (hstacked : c.stackOrEmpty.steps = (done.filter Step.needsCompensation).reverse) :
    CompensationStack.newSteps c.stackOrEmpty.queued
      (c.run.history.filter Step.needsCompensation) = rest.filter Step.needsCompensation := by
  have hnodup := h.nodup
  rw [hsplit, List.map_append, List.nodup_append] at hnodup
  obtain ⟨-, -, hapart⟩ := hnodup
  -- what waits are the steps to undo of the stacked part
  have hqueued : ∀ id, id ∈ c.stackOrEmpty.queued ↔
      ∃ s ∈ done, s.needsCompensation ∧ s.id = id := by
    intro id
    rw [h.sound.queued_eq, hstacked]
    simp [and_assoc]
  have hneeded : ((c.run.history.filter Step.needsCompensation).map Step.id).Nodup :=
    (List.filter_sublist.map Step.id).nodup h.nodup
  rw [CompensationStack.newSteps_eq_filter hneeded, hsplit, List.filter_append, List.filter_append]
  have hdone : (done.filter Step.needsCompensation).filter
      (fun s => decide (s.id ∉ c.stackOrEmpty.queued)) = [] := by
    refine List.filter_eq_nil_iff.2 fun s hs => ?_
    obtain ⟨hmem, hneeds⟩ := List.mem_filter.1 hs
    simpa using (hqueued s.id).2 ⟨s, hmem, hneeds, rfl⟩
  have hrest : (rest.filter Step.needsCompensation).filter
      (fun s => decide (s.id ∉ c.stackOrEmpty.queued)) = rest.filter Step.needsCompensation := by
    refine List.filter_eq_self.2 fun s hs => ?_
    rw [decide_eq_true_eq, hqueued]
    rintro ⟨other, hother, -, hid⟩
    exact hapart other.id (List.mem_map_of_mem hother) s.id
      (List.mem_map_of_mem (List.mem_filter.1 hs).1) hid
  rw [hdone, hrest, List.nil_append]

/-- To turn around extends the stacked part to the whole history. -/
theorem Planned.steps_turnAround (h : c.Planned) :
    (Trigger.turnAround c (c.run.history.filter Step.needsCompensation)).stackOrEmpty.steps =
      (c.run.history.filter Step.needsCompensation).reverse := by
  obtain ⟨done, rest, hsplit, hstacked⟩ := h.stacked
  change (c.stackOrEmpty.pushAll (c.run.history.filter Step.needsCompensation)).steps = _
  rw [CompensationStack.steps_pushAll, h.newSteps_eq hsplit hstacked, hstacked, hsplit,
    List.filter_append, List.reverse_append]

variable {σ : Type} {t : Trigger σ} {now : Timestamp} {log : σ} {e : Effect σ Decision}

/-- Every decision keeps the plan. -/
theorem Planned.fired (h : c.Planned) (hpolicy : t.policy = .needed)
    (hfired : t.Fired now c log e) : e.context.Planned := by
  cases hfired with
  | refused | unread => exact h
  -- settling touches neither the history nor the stack
  | unwritten | ended => exact h.of_eq rfl rfl
  -- from now on the stacked part is the whole history
  | compensating _ log' history hread _ =>
    obtain rfl := Trigger.eq_of_history_eq h.ne_nil hread
    refine ⟨h.ne_nil, h.nodup, h.sound.pushAll _, c.run.history, [],
      (List.append_nil c.run.history).symm, ?_⟩
    rw [hpolicy]
    exact h.steps_turnAround

/-- Behind a decision to compensate the whole history is planned for. -/
theorem Planned.steps_of_compensating (h : c.Planned) (hpolicy : t.policy = .needed)
    (hfired : t.Fired now c log e) {queued : Nat} (hanswer : e.answer = .ok (.compensating queued)) :
    e.context.stackOrEmpty.steps =
      (e.context.run.history.filter Step.needsCompensation).reverse := by
  cases hfired with
  | refused | unread | unwritten | ended => exact nomatch hanswer
  | compensating _ log' history hread _ =>
    obtain rfl := Trigger.eq_of_history_eq h.ne_nil hread
    rw [hpolicy]
    exact h.steps_turnAround

/-- Unless the run has ended, it is compensated exactly if a step of its history must be undone. -/
theorem Planned.compensates_iff (h : c.Planned) (hpolicy : t.policy = .needed)
    (hfired : t.Fired now c log e) (hopen : c.ended = false) :
    (∃ queued, e.answer = .ok (.compensating queued)) ↔
      ∃ s ∈ c.run.history, s.needsCompensation := by
  cases hfired with
  | refused hended => exact nomatch hended.symm.trans hopen
  | unread _ log' cause hread =>
    rw [Trigger.history_of_ne_nil h.ne_nil] at hread
    exact nomatch hread
  | unwritten _ log' history _ _ hread hempty | ended _ log' history _ hread hempty =>
    obtain rfl := Trigger.eq_of_history_eq h.ne_nil hread
    rw [hpolicy] at hempty
    refine iff_of_false ?_ ?_
    · rintro ⟨queued, hanswer⟩
      exact nomatch hanswer
    · rintro ⟨s, hs, hneeds⟩
      exact List.filter_eq_nil_iff.1 hempty s hs hneeds
  | compensating _ log' history hread hsome =>
    obtain rfl := Trigger.eq_of_history_eq h.ne_nil hread
    rw [hpolicy] at hsome
    obtain ⟨s, hs⟩ := List.exists_mem_of_ne_nil _ hsome
    exact iff_of_true ⟨_, rfl⟩ ⟨s, Policy.mem_needed.1 hs⟩

/-- A run ends only if nothing is left on the stack. -/
theorem Planned.stack_of_ended (h : c.Planned) (hpolicy : t.policy = .needed)
    (hfired : t.Fired now c log e) (hanswer : e.answer = .ok .ended) :
    c.stackOrEmpty = .empty := by
  cases hfired with
  | refused | unread | unwritten | compensating => exact nomatch hanswer
  | ended _ log' history _ hread hnone _ =>
    obtain rfl := Trigger.eq_of_history_eq h.ne_nil hread
    obtain ⟨done, rest, hsplit, hstacked⟩ := h.stacked
    -- nothing in the whole history must be undone, so nothing in its stacked part
    have hnone : c.run.history.filter Step.needsCompensation = [] := by
      rw [hpolicy] at hnone
      exact hnone
    rw [hsplit, List.filter_append, List.append_eq_nil_iff] at hnone
    refine h.sound.eq_empty ?_
    rw [hstacked, hnone.1, List.reverse_nil]

/-! ### The order of popping -/

theorem Planned.descends (h : c.Planned) : c.Descends := by
  obtain ⟨done, rest, hsplit, hstacked⟩ := h.stacked
  have hsublist : (done.filter Step.needsCompensation).Sublist c.run.history := by
    rw [hsplit]
    exact List.filter_sublist.trans (List.sublist_append_left done rest)
  refine ⟨?_, ?_, ?_⟩
  · intro s hs
    rw [hstacked, List.mem_reverse] at hs
    exact hsublist.subset hs
  · rw [← h.sound.queued_eq]
    exact h.sound.nodup
  · rw [hstacked, List.pairwise_reverse]
    exact (Run.pairwise_position h.nodup).sublist hsublist

end Context

namespace Handling

variable {σ : Type} {t : Trigger σ} {start : Handling σ}

/-- Take up a context with an empty stack, whose history has steps with identifiers of their own,
and handle it in any order with orderly changes and with decisions by the usual policy. At every
moment the steps are popped against the order of the history, none twice. A decision to compensate
is taken if a step must be undone, and leaves exactly the steps of the history that must be undone
on the stack, so that popping until it is empty gives them once each, the last one first. A
decision that the run has ended finds the stack empty. -/
theorem plan_of_run (hpolicy : t.policy = .needed) (hempty : start.context.stackOrEmpty = .empty)
    (hsteps : start.context.run.history ≠ [])
    (hnodup : (start.context.run.history.map Step.id).Nodup) {commands : List (Command σ)}
    (hrun : Outcome.Admits (step t) (Allows Context.Orderly) start commands) :
    let s := (Outcome.run (step t) start commands).state
    s.context.Descends ∧
      ∀ now : Timestamp,
        let e := t.fire now s.context s.log
        (s.context.ended = false →
          ((∃ queued, e.answer = .ok (.compensating queued)) ↔
            ∃ step ∈ s.context.run.history, step.needsCompensation)) ∧
        (∀ queued, e.answer = .ok (.compensating queued) →
          e.context.Descends ∧
            e.context.stackOrEmpty.drain =
              ((e.context.run.history.filter Step.needsCompensation).reverse, .empty)) ∧
        (e.answer = .ok .ended → s.context.stackOrEmpty = .empty) := by
  intro s
  -- at the beginning nothing of the history is stacked
  have hstart : start.context.Planned := by
    refine ⟨hsteps, hnodup, ?_, [], start.context.run.history, rfl, ?_⟩
    · rw [hempty]
      exact CompensationStack.sound_empty
    · rw [hempty]
      rfl
  have hplanned : s.context.Planned :=
    context_induction (fun now c log e hfired h => h.fired hpolicy hfired)
      (fun c change hallowed h => h.edit hallowed) hstart hrun
  refine ⟨hplanned.descends, fun now => ?_⟩
  have hfired := t.fired now s.context s.log
  intro e
  have hbehind : e.context.Planned := hplanned.fired hpolicy hfired
  refine ⟨hplanned.compensates_iff hpolicy hfired, ?_, ?_⟩
  · intro queued hanswer
    refine ⟨hbehind.descends, ?_⟩
    rw [hbehind.sound.drain_eq, hplanned.steps_of_compensating hpolicy hfired hanswer]
  · intro hanswer
    exact hplanned.stack_of_ended hpolicy hfired hanswer

/-- Two steps are to be undone, and the second one has been. Before the first one is, a third step
gets into the history. The decision taken then puts it on top of what is left. -/
theorem plan_behind_half_drained_stack :
    let a := Step.compensable "A" "debit" "refund" (.ofUnixMillis 0)
    let b := Step.compensable "B" "book" "cancel" (.ofUnixMillis 1)
    let late := Step.compensable "C" "notify" "recall" (.ofUnixMillis 2)
    let run := (Run.start ⟨.replicate 16 7⟩ "transfer" (.ofUnixMillis 0)).pushStep a
    let start : Handling MemoryLog := ⟨.ofRun (run.pushStep b), .empty⟩
    let s := (Outcome.run (step (.inMemory 1)) start
      [.fire (.ofUnixMillis 3), .edit (.stack .pop), .edit (.markStep "B" .succeeded),
        .edit (.pushStep late)]).state
    let e := (Trigger.inMemory 1).fire (.ofUnixMillis 4) s.context s.log
    s.context.stackOrEmpty.steps = [a] ∧ e.answer = .ok (.compensating 1) ∧
      e.context.stackOrEmpty.drain = ([late, a], .empty) := by
  intro a b late run start s e
  have hrun : Outcome.Admits (step (.inMemory 1)) (Allows Context.Orderly) start
      [.fire (.ofUnixMillis 3), .edit (.stack .pop), .edit (.markStep "B" .succeeded),
        .edit (.pushStep late)] := by
    refine ⟨trivial, trivial, ⟨?_, fun _ _ _ _ => rfl⟩, ?_, trivial⟩
    · change "B" ∉ ["A"]
      decide
    · change "C" ∉ ["A", "B"]
      decide
  obtain ⟨-, hfire⟩ := plan_of_run rfl rfl (List.cons_ne_nil a [b]) (by decide) hrun
  refine ⟨rfl, rfl, ?_⟩
  rw [((hfire (.ofUnixMillis 4)).2.1 1 rfl).2]
  rfl

end Handling

end GlobalTransaction.Saga
