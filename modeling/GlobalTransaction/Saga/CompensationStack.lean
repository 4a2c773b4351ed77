import GlobalTransaction.Saga.Step

/-!
# Stacks of steps to undo

The steps that wait to be undone, the one executed last on top. A step whose
identifier already waits is not stacked again.

## Main definitions

* `Saga.CompensationStack` — the steps, and the identifiers that wait
* `CompensationStack.push`, `pushAll`, `pop`, `peek`, `drain`
* `CompensationStack.Command`, `CompensationStack.step` — runs

## Main results

* `CompensationStack.pop_push` — a step that was pushed is popped first
-/

namespace GlobalTransaction.Saga

/-- Steps that wait to be undone. -/
structure CompensationStack where
  /-- The steps, the next one to undo first. -/
  steps : List Step
  /-- The identifiers that wait. -/
  queued : List String
deriving DecidableEq

namespace CompensationStack

/-- The stack without steps. -/
def empty : CompensationStack := ⟨[], []⟩

instance : Inhabited CompensationStack := ⟨empty⟩

/-- The number of steps. -/
def size (stack : CompensationStack) : Nat := stack.steps.length

/-- No step waits. -/
def isEmpty (stack : CompensationStack) : Bool := stack.steps.isEmpty

/-- A step with this identifier waits. -/
def contains (stack : CompensationStack) (id : String) : Bool := decide (id ∈ stack.queued)

/-- The next step to undo. -/
def peek (stack : CompensationStack) : Option Step := stack.steps.head?

/-- The stack with one more step, unless its identifier waits already. -/
def push (stack : CompensationStack) (s : Step) : CompensationStack :=
  if stack.contains s.id then stack else ⟨s :: stack.steps, s.id :: stack.queued⟩

/-- The stack with more steps, pushed one after the other. -/
def pushAll (stack : CompensationStack) (steps : List Step) : CompensationStack :=
  steps.foldl push stack

/-- How many of several steps are new to the stack when they are pushed one after the other. -/
def countNew (stack : CompensationStack) (steps : List Step) : Nat :=
  (stack.pushAll steps).size - stack.size

/-- The next step to undo, and the stack without it. -/
def pop (stack : CompensationStack) : Option (Step × CompensationStack) :=
  match stack.steps with
  | [] => none
  | s :: rest => some (s, ⟨rest, stack.queued.filter fun id => decide (id ≠ s.id)⟩)

/-- Pops at most so many steps: those, and the stack that is left. -/
def popMany : Nat → CompensationStack → List Step × CompensationStack
  | 0, stack => ([], stack)
  | count + 1, stack =>
    match stack.pop with
    | none => ([], stack)
    | some (s, rest) =>
      let (steps, left) := popMany count rest
      (s :: steps, left)

/-- Pops until the stack is empty. -/
def drain (stack : CompensationStack) : List Step × CompensationStack :=
  popMany stack.size stack

theorem push_of_contains {stack : CompensationStack} {s : Step} (h : stack.contains s.id) :
    stack.push s = stack := if_pos h

theorem push_of_not_contains {stack : CompensationStack} {s : Step}
    (h : stack.contains s.id = false) :
    stack.push s = ⟨s :: stack.steps, s.id :: stack.queued⟩ := by
  simp [push, h]

/-- A step that was pushed is popped first. -/
theorem pop_push {stack : CompensationStack} {s : Step} (h : stack.contains s.id = false) :
    (stack.push s).pop = some (s, stack) := by
  have hnot : s.id ∉ stack.queued := by simpa [contains] using h
  have hkeep : stack.queued.filter (fun id => decide (id ≠ s.id)) = stack.queued := by
    refine List.filter_eq_self.2 fun id hid => ?_
    simp only [ne_eq, decide_not, Bool.not_eq_true', decide_eq_false_iff_not]
    rintro rfl
    exact hnot hid
  rw [push_of_not_contains h]
  simp only [pop, List.filter_cons, ne_eq, not_true_eq_false, decide_false, Bool.false_eq_true,
    if_false]
  rw [show stack.queued.filter (fun id => decide ¬id = s.id) = stack.queued from hkeep]

/-! ### Runs -/

/-- What a stack can be asked for. -/
inductive Command
  | push (s : Step)
  | pushAll (steps : List Step)
  | pop
  | peek
  | drain
  | contains (id : String)
  | size
  | list
deriving DecidableEq

/-- The answers to commands. -/
inductive Answer
  /-- Whether something was pushed, or waits. -/
  | truth (value : Bool)
  /-- How many steps were pushed. -/
  | pushed (count : Nat)
  /-- The step on top. -/
  | top (s : Option Step)
  /-- Steps in the order in which they are undone. -/
  | steps (list : List Step)
  | size (count : Nat)
deriving DecidableEq

/-- The effect of one command. -/
def step (stack : CompensationStack) : Command → CompensationStack × Answer
  | .push s => (stack.push s, .truth (!stack.contains s.id))
  | .pushAll steps => (stack.pushAll steps, .pushed (stack.countNew steps))
  | .pop =>
    match stack.pop with
    | none => (stack, .top none)
    | some (s, rest) => (rest, .top (some s))
  | .peek => (stack, .top stack.peek)
  | .drain => (stack.drain.2, .steps stack.drain.1)
  | .contains id => (stack, .truth (stack.contains id))
  | .size => (stack, .size stack.size)
  | .list => (stack, .steps stack.steps)

end CompensationStack

end GlobalTransaction.Saga
