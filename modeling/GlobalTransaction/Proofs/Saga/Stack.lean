import GlobalTransaction.Saga.CompensationStack
import Mathlib.Data.List.Induction
import Mathlib.Data.List.Nodup

/-!
# Stacks without repetition

A stack remembers the identifiers that wait beside the steps themselves. They stay the
identifiers of the steps, and none comes twice. So pushing several steps puts those on top whose
identifiers are new, and popping gives the steps back from the top.

## Main definitions

* `CompensationStack.Sound` — the identifiers that wait are those of the steps, each once
* `CompensationStack.newSteps` — the first steps of a list whose identifiers do not wait yet
* `CompensationStack.Reachable` — what commands can make of the stack without steps

## Main results

* `CompensationStack.Sound.step` — every command keeps a stack sound
* `CompensationStack.steps_pushAll` — what pushing several steps puts on top
* `CompensationStack.pushAll_pushAll` — to push several steps once more changes nothing
* `CompensationStack.Sound.drain_eq` — popping until nothing is left gives the steps in order
-/

set_option autoImplicit false

namespace GlobalTransaction.Saga.CompensationStack

/-- The identifiers that wait are those of the steps, and none comes twice. -/
structure Sound (stack : CompensationStack) : Prop where
  queued_eq : stack.queued = stack.steps.map Step.id
  nodup : stack.queued.Nodup

/-- Of the steps of a list whose identifiers do not wait yet, the first one with each. -/
def newSteps (queued : List String) : List Step → List Step
  | [] => []
  | s :: rest => if s.id ∈ queued then newSteps queued rest else s :: newSteps (s.id :: queued) rest

/-- Steps with different identifiers do not get into each other's way. -/
theorem newSteps_eq_filter {queued : List String} {steps : List Step}
    (hnodup : (steps.map Step.id).Nodup) :
    newSteps queued steps = steps.filter fun s => decide (s.id ∉ queued) := by
  induction steps generalizing queued with
  | nil => rfl
  | cons s rest ih =>
    obtain ⟨hs, hrest⟩ := List.nodup_cons.1 hnodup
    by_cases hqueued : s.id ∈ queued
    · rw [newSteps, if_pos hqueued, ih hrest, List.filter_cons_of_neg (by simpa using hqueued)]
    · rw [newSteps, if_neg hqueued, ih hrest, List.filter_cons_of_pos (by simpa using hqueued)]
      -- no further step has the identifier that waits from now on
      have hkeep : ∀ other ∈ rest,
          decide (other.id ∉ s.id :: queued) = decide (other.id ∉ queued) := by
        intro other hother
        have hne : other.id ≠ s.id := fun heq => hs (heq ▸ List.mem_map_of_mem hother)
        simp [hne]
      rw [List.filter_congr hkeep]

theorem sound_empty : empty.Sound := ⟨rfl, List.nodup_nil⟩

variable {stack : CompensationStack}

/-- A sound stack is known by its steps. -/
theorem Sound.eq_empty (h : stack.Sound) (hsteps : stack.steps = []) : stack = empty := by
  obtain ⟨steps, queued⟩ := stack
  have hqueued : queued = steps.map Step.id := h.queued_eq
  subst hsteps hqueued
  rfl

theorem Sound.push (h : stack.Sound) (s : Step) : (stack.push s).Sound := by
  by_cases hqueued : s.id ∈ stack.queued
  · rw [push_of_contains (by simpa [contains] using hqueued)]
    exact h
  · rw [push_of_not_contains (by simpa [contains] using hqueued)]
    constructor
    · rw [h.queued_eq]
      rfl
    · exact List.nodup_cons.2 ⟨hqueued, h.nodup⟩

theorem Sound.pushAll (h : stack.Sound) (steps : List Step) : (stack.pushAll steps).Sound := by
  induction steps generalizing stack with
  | nil => exact h
  | cons s steps ih => exact ih (h.push s)

theorem Sound.pop (h : stack.Sound) {s : Step} {rest : CompensationStack}
    (hpop : stack.pop = some (s, rest)) : rest.Sound ∧ stack.steps = s :: rest.steps := by
  obtain ⟨steps, queued⟩ := stack
  have hqueued : queued = steps.map Step.id := h.queued_eq
  subst hqueued
  cases steps with
  | nil => exact nomatch hpop
  | cons top below =>
    obtain ⟨htop, hbelow⟩ := List.nodup_cons.1 h.nodup
    -- of the identifiers that wait, only that of the popped step goes
    have hkeep : (top.id :: below.map Step.id).filter (fun id => decide (id ≠ top.id)) =
        below.map Step.id := by
      rw [List.filter_cons_of_neg (by simp)]
      refine List.filter_eq_self.2 fun id hid => ?_
      rw [decide_eq_true_eq]
      rintro rfl
      exact htop hid
    have hpopped : some (top, CompensationStack.mk below
        ((top.id :: below.map Step.id).filter fun id => decide (id ≠ top.id))) = some (s, rest) :=
      hpop
    rw [hkeep] at hpopped
    obtain ⟨rfl, rfl⟩ := Prod.mk.inj (Option.some.inj hpopped)
    exact ⟨⟨rfl, hbelow⟩, rfl⟩

theorem Sound.popMany (h : stack.Sound) (count : Nat) : (popMany count stack).2.Sound := by
  induction count generalizing stack with
  | zero => exact h
  | succ count ih =>
    cases hpop : stack.pop with
    | none =>
      rw [CompensationStack.popMany, hpop]
      exact h
    | some popped =>
      rw [CompensationStack.popMany, hpop]
      exact ih (h.pop hpop).1

/-- Every command keeps a stack sound. -/
theorem Sound.step (h : stack.Sound) (command : Command) : (stack.step command).1.Sound := by
  cases command with
  | push s => exact h.push s
  | pushAll steps => exact h.pushAll steps
  | pop =>
    cases hpop : stack.pop with
    | none =>
      rw [CompensationStack.step, hpop]
      exact h
    | some popped =>
      rw [CompensationStack.step, hpop]
      exact (h.pop hpop).1
  | drain => exact h.popMany stack.size
  | peek | contains | size | list => exact h

/-- What commands, in any number and order, can make of the stack without steps. -/
def Reachable (stack : CompensationStack) : Prop :=
  ∃ commands : List Command,
    commands.foldl (fun stack command => (stack.step command).1) empty = stack

theorem Reachable.sound (h : stack.Reachable) : stack.Sound := by
  obtain ⟨commands, rfl⟩ := h
  induction commands using List.reverseRecOn with
  | nil => exact sound_empty
  | append_singleton commands command ih =>
    rw [List.foldl_append]
    exact ih.step command

/-! ### What is pushed and popped -/

theorem pushAll_cons (stack : CompensationStack) (s : Step) (steps : List Step) :
    stack.pushAll (s :: steps) = (stack.push s).pushAll steps := rfl

theorem contains_push (stack : CompensationStack) (s : Step) (id : String) :
    (stack.push s).contains id ↔ stack.contains id ∨ s.id = id := by
  by_cases hwaits : stack.contains s.id
  · rw [push_of_contains hwaits, iff_self_or]
    rintro rfl
    exact hwaits
  · rw [push_of_not_contains (by simpa using hwaits), contains, contains, decide_eq_true_iff,
      decide_eq_true_iff, List.mem_cons, eq_comm, or_comm]

/-- Behind several pushes an identifier waits if it waited before or is that of a pushed step. -/
theorem contains_pushAll (stack : CompensationStack) (steps : List Step) (id : String) :
    (stack.pushAll steps).contains id ↔ stack.contains id ∨ ∃ s ∈ steps, s.id = id := by
  induction steps generalizing stack with
  | nil => simp [pushAll]
  | cons s steps ih =>
    rw [pushAll_cons, ih, contains_push, or_assoc]
    simp

/-- Steps whose identifiers all wait are not pushed. -/
theorem pushAll_of_forall_contains {stack : CompensationStack} {steps : List Step}
    (h : ∀ s ∈ steps, stack.contains s.id) : stack.pushAll steps = stack := by
  induction steps with
  | nil => rfl
  | cons s steps ih =>
    obtain ⟨hs, hsteps⟩ := List.forall_mem_cons.1 h
    rw [pushAll_cons, push_of_contains hs]
    exact ih hsteps

/-- To push the same steps once more changes nothing. -/
@[simp] theorem pushAll_pushAll (stack : CompensationStack) (steps : List Step) :
    (stack.pushAll steps).pushAll steps = stack.pushAll steps :=
  pushAll_of_forall_contains fun s hs => (contains_pushAll stack steps s.id).2 (.inr ⟨s, hs, rfl⟩)

@[simp] theorem countNew_pushAll (stack : CompensationStack) (steps : List Step) :
    (stack.pushAll steps).countNew steps = 0 := by
  rw [countNew, pushAll_pushAll, Nat.sub_self]

/-- What waits in a sound stack is there once. -/
theorem Sound.count_id (h : stack.Sound) {id : String} (hwaits : stack.contains id) :
    (stack.steps.map Step.id).count id = 1 := by
  rw [← h.queued_eq]
  exact List.count_eq_one_of_mem h.nodup (of_decide_eq_true hwaits)

theorem Sound.not_isEmpty (h : stack.Sound) {id : String} (hwaits : stack.contains id) :
    stack.isEmpty = false := by
  have hqueued : id ∈ stack.steps.map Step.id := h.queued_eq ▸ of_decide_eq_true hwaits
  obtain ⟨s, hs, -⟩ := List.mem_map.1 hqueued
  exact List.isEmpty_eq_false_iff.2 (List.ne_nil_of_mem hs)

/-- Pushing several steps puts the new ones on top, the last one first. -/
theorem steps_pushAll (stack : CompensationStack) (steps : List Step) :
    (stack.pushAll steps).steps = (newSteps stack.queued steps).reverse ++ stack.steps := by
  -- what is pushed first is new or not by the stack as it was, so the stack is generalized
  induction steps generalizing stack with
  | nil => rfl
  | cons s steps ih =>
    rw [pushAll_cons, ih, newSteps]
    by_cases hqueued : s.id ∈ stack.queued
    · rw [push_of_contains (by simpa [contains] using hqueued), if_pos hqueued]
    · rw [push_of_not_contains (by simpa [contains] using hqueued), if_neg hqueued,
        List.reverse_cons, List.append_assoc]
      rfl

/-- Popping takes the steps off the top, as many as there are. -/
theorem popMany_steps (count : Nat) (stack : CompensationStack) :
    (popMany count stack).1 = stack.steps.take count ∧
      (popMany count stack).2.steps = stack.steps.drop count := by
  induction count generalizing stack with
  | zero => exact ⟨rfl, rfl⟩
  | succ count ih =>
    obtain ⟨steps, queued⟩ := stack
    cases steps with
    | nil => exact ⟨rfl, rfl⟩
    | cons top below =>
      obtain ⟨htaken, hleft⟩ := ih ⟨below, queued.filter fun id => decide (id ≠ top.id)⟩
      exact ⟨congrArg (top :: ·) htaken, hleft⟩

/-- What does not push can only take steps off the top. -/
theorem steps_eq_append_step {stack : CompensationStack} {command : Command}
    (hpush : ∀ s, command ≠ .push s) (hpushAll : ∀ steps, command ≠ .pushAll steps) :
    ∃ top, stack.steps = top ++ (stack.step command).1.steps := by
  cases command with
  | push s => exact absurd rfl (hpush s)
  | pushAll steps => exact absurd rfl (hpushAll steps)
  | pop =>
    obtain ⟨steps, queued⟩ := stack
    cases steps with
    | nil => exact ⟨[], rfl⟩
    | cons s below => exact ⟨[s], rfl⟩
  | drain =>
    refine ⟨stack.steps.take stack.size, ?_⟩
    rw [step, drain, (popMany_steps stack.size stack).2, List.take_append_drop]
  | peek | contains | size | list => exact ⟨[], rfl⟩

/-- Popping until nothing is left gives the steps from the top, and leaves the empty stack. -/
theorem Sound.drain_eq (h : stack.Sound) : stack.drain = (stack.steps, empty) := by
  obtain ⟨htaken, hleft⟩ := popMany_steps stack.size stack
  have hsteps : stack.drain.1 = stack.steps := by
    rw [drain, htaken, size, List.take_length]
  -- a stack without steps is the empty one only because its identifiers are those of its steps
  have hempty : stack.drain.2 = empty := by
    refine (h.popMany stack.size).eq_empty ?_
    rw [hleft, size, List.drop_length]
  exact Prod.ext hsteps hempty

end GlobalTransaction.Saga.CompensationStack
