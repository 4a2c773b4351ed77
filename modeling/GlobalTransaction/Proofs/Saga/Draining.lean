import GlobalTransaction.Proofs.Saga.Stack
import Mathlib.Data.Finset.Card
import Mathlib.Data.List.Range

/-!
# What a stack gives back

Whatever has been pushed and popped, a stack has two memories, of its steps and of the identifiers
that wait, and they agree. So all that can be asked of it is known from the order in which it would
be popped, and pushing several steps puts those in front of that order that come first in their
list with a new identifier, the last one foremost.

## Main definitions

* `CompensationStack.firstNew` — the steps of a list that are the first with a new identifier

## Main results

* `CompensationStack.newSteps_eq_firstNew` — these are the steps that get onto a stack
* `CompensationStack.Sound.countNew_eq` — they are as many as there are new identifiers
* `CompensationStack.drained_in_order` — the answers of a stack, from the order of popping
-/

set_option autoImplicit false

namespace GlobalTransaction.Saga.CompensationStack

/-- The identifier of a step in its place of a list does not wait, and no step before that place
has it. -/
def IsFirstNew (queued : List String) (steps : List Step) (placed : Step × Nat) : Prop :=
  placed.1.id ∉ queued ∧ ∀ earlier ∈ steps.take placed.2, earlier.id ≠ placed.1.id

instance (queued : List String) (steps : List Step) : DecidablePred (IsFirstNew queued steps) :=
  fun placed => inferInstanceAs
    (Decidable (placed.1.id ∉ queued ∧ ∀ earlier ∈ steps.take placed.2, earlier.id ≠ placed.1.id))

/-- The steps of a list that are the first with a new identifier, in their order. -/
def firstNew (queued : List String) (steps : List Step) : List Step :=
  (steps.zipIdx.filter fun placed => decide (IsFirstNew queued steps placed)).map Prod.fst

/-- One more step at the end of a list gets onto a stack if it does not wait and no step of the list
has its identifier. -/
theorem newSteps_append_singleton (queued : List String) (steps : List Step) (s : Step) :
    newSteps queued (steps ++ [s]) = newSteps queued steps ++
      if s.id ∉ queued ∧ ∀ earlier ∈ steps, earlier.id ≠ s.id then [s] else [] := by
  induction steps generalizing queued with
  | nil => simp [newSteps]
  | cons t steps ih =>
    rw [List.cons_append, newSteps, newSteps]
    by_cases hqueued : t.id ∈ queued
    · have hcond : (s.id ∉ queued ∧ ∀ earlier ∈ steps, earlier.id ≠ s.id) ↔
          s.id ∉ queued ∧ ∀ earlier ∈ t :: steps, earlier.id ≠ s.id := by
        rw [List.forall_mem_cons]
        refine and_congr_right fun hs => (and_iff_right ?_).symm
        exact fun heq => hs (heq ▸ hqueued)
      rw [if_pos hqueued, if_pos hqueued, ih, if_congr hcond rfl rfl]
    · -- from now on the first step waits
      have hcond : (s.id ∉ t.id :: queued ∧ ∀ earlier ∈ steps, earlier.id ≠ s.id) ↔
          s.id ∉ queued ∧ ∀ earlier ∈ t :: steps, earlier.id ≠ s.id := by
        rw [List.forall_mem_cons, List.mem_cons, not_or, ne_comm (a := t.id), and_left_comm,
          and_assoc]
      rw [if_neg hqueued, if_neg hqueued, ih, if_congr hcond rfl rfl, List.cons_append]

theorem firstNew_append_singleton (queued : List String) (steps : List Step) (s : Step) :
    firstNew queued (steps ++ [s]) = firstNew queued steps ++
      if s.id ∉ queued ∧ ∀ earlier ∈ steps, earlier.id ≠ s.id then [s] else [] := by
  -- what is before the other steps is the same without the last one
  have hothers : ∀ placed ∈ steps.zipIdx,
      decide (IsFirstNew queued (steps ++ [s]) placed) = decide (IsFirstNew queued steps placed) := by
    intro placed hplaced
    have hplace : placed.2 ≤ steps.length := (List.snd_lt_of_mem_zipIdx hplaced).le
    rw [decide_eq_decide, IsFirstNew, IsFirstNew, List.take_append_of_le_length hplace]
  have hlast : IsFirstNew queued (steps ++ [s]) (s, steps.length) ↔
      s.id ∉ queued ∧ ∀ earlier ∈ steps, earlier.id ≠ s.id := by
    rw [IsFirstNew, List.take_left' rfl]
  rw [firstNew, firstNew, List.zipIdx_append, List.filter_append, List.map_append,
    List.filter_congr hothers, Nat.zero_add, List.zipIdx_singleton]
  by_cases hnew : s.id ∉ queued ∧ ∀ earlier ∈ steps, earlier.id ≠ s.id
  · rw [if_pos hnew, List.filter_cons_of_pos (by simpa using hlast.2 hnew)]
    rfl
  · rw [if_neg hnew, List.filter_cons_of_neg (by simpa using mt hlast.1 hnew)]
    rfl

/-- The steps that get onto a stack are the first ones with new identifiers. -/
theorem newSteps_eq_firstNew (queued : List String) (steps : List Step) :
    newSteps queued steps = firstNew queued steps := by
  induction steps using List.reverseRecOn with
  | nil => rfl
  | append_singleton steps s ih => rw [newSteps_append_singleton, firstNew_append_singleton, ih]

variable {stack : CompensationStack}

theorem Sound.size_eq_card (h : stack.Sound) : stack.size = stack.queued.toFinset.card := by
  rw [List.toFinset_card_of_nodup h.nodup, h.queued_eq, List.length_map, size]

/-- Pushing several steps pushes as many as there are identifiers among them that do not wait. -/
theorem Sound.countNew_eq (h : stack.Sound) (steps : List Step) :
    stack.countNew steps = ((steps.map Step.id).toFinset \ stack.queued.toFinset).card := by
  have hqueued : (stack.pushAll steps).queued.toFinset =
      (steps.map Step.id).toFinset ∪ stack.queued.toFinset := by
    ext id
    have hwaits := contains_pushAll stack steps id
    simp only [contains, decide_eq_true_iff] at hwaits
    simp [hwaits, or_comm]
  have hcard := Finset.card_sdiff_add_card (steps.map Step.id).toFinset stack.queued.toFinset
  rw [countNew, (h.pushAll steps).size_eq_card, hqueued, h.size_eq_card]
  omega

/-- Popping gives the step on top and leaves the others as they are. -/
theorem steps_step_pop (stack : CompensationStack) :
    (stack.step .pop).2 = .top stack.steps.head? ∧
      (stack.step .pop).1.steps = stack.steps.tail := by
  obtain ⟨steps, queued⟩ := stack
  cases steps with
  | nil => exact ⟨rfl, rfl⟩
  | cons s rest => exact ⟨rfl, rfl⟩

/-- Take any stack that commands can make. Popping until nothing is left gives no identifier twice,
and tells what else can be asked: the identifiers that wait, whether one does, the number of steps,
whether there are any, the one on top and all of them. Pushing several steps reports how many
identifiers among them are new. Popping gives from then on the first steps with these, the last one
of them first, and then what it would have given before. -/
theorem drained_in_order (h : stack.Reachable) :
    let order := stack.drain.1
    let waiting := order.map Step.id
    stack.drain.2 = .empty ∧ waiting.Nodup ∧ (∀ id, id ∈ stack.queued ↔ id ∈ waiting) ∧
      (∀ id, stack.step (.contains id) = (stack, .truth (decide (id ∈ waiting)))) ∧
      stack.step .size = (stack, .size order.length) ∧ stack.isEmpty = order.isEmpty ∧
      stack.step .peek = (stack, .top order.head?) ∧ stack.step .list = (stack, .steps order) ∧
      ((stack.step .pop).2 = .top order.head? ∧ (stack.step .pop).1.drain.1 = order.tail) ∧
      ∀ steps,
        let pushed := stack.step (.pushAll steps)
        let count := ((steps.map Step.id).toFinset \ waiting.toFinset).card
        pushed.2 = .pushed count ∧ (firstNew waiting steps).length = count ∧
          pushed.1.drain = ((firstNew waiting steps).reverse ++ order, .empty) := by
  intro order waiting
  have hsound := h.sound
  have hdrain : stack.drain = (stack.steps, empty) := hsound.drain_eq
  have horder : order = stack.steps := congrArg Prod.fst hdrain
  have hwaiting : waiting = stack.queued := by
    rw [hsound.queued_eq, ← horder]
  rw [hwaiting, horder]
  obtain ⟨htop, hbelow⟩ := stack.steps_step_pop
  have hpopped : (stack.step .pop).1.drain.1 = stack.steps.tail := by
    rw [(hsound.step .pop).drain_eq, hbelow]
  refine ⟨congrArg Prod.snd hdrain, hsound.nodup, fun _ => Iff.rfl, fun _ => rfl, rfl, rfl, rfl, rfl,
    ⟨htop, hpopped⟩, fun steps => ?_⟩
  intro pushed count
  have hcount : stack.countNew steps = count := hsound.countNew_eq steps
  have hsteps : (stack.pushAll steps).steps =
      (firstNew stack.queued steps).reverse ++ stack.steps := by
    rw [steps_pushAll, newSteps_eq_firstNew]
  refine ⟨congrArg Answer.pushed hcount, ?_, ?_⟩
  · rw [← hcount, countNew, size, size, hsteps, List.length_append, List.length_reverse,
      Nat.add_sub_cancel_right]
  · exact ((hsound.pushAll steps).drain_eq).trans (by rw [hsteps])

/-- Of three steps one is popped, and another one is pushed. Then come two steps with one new
identifier, the popped step, and two that still wait. -/
theorem drained_behind_popping :
    let a := Step.compensable "A" "debit" "refund" (.ofUnixMillis 0)
    let b := Step.compensable "B" "book" "cancel" (.ofUnixMillis 1)
    let c := Step.compensable "C" "notify" "recall" (.ofUnixMillis 2)
    let d := Step.compensable "D" "ship" "return" (.ofUnixMillis 3)
    let e := Step.compensable "E" "bill" "credit" (.ofUnixMillis 4)
    let again := Step.compensable "E" "bill again" "credit" (.ofUnixMillis 5)
    let stack := [Command.pushAll [a, b, c], .pop, .push d].foldl
      (fun stack command => (stack.step command).1) empty
    let pushed := stack.step (.pushAll [e, a, again, c, b])
    stack.drain.1 = [d, b, a] ∧ stack.step (.contains "C") = (stack, .truth false) ∧
      pushed.2 = .pushed 2 ∧ pushed.1.drain = ([c, e, d, b, a], .empty) := by
  intro a b c d e again stack pushed
  have hstack : stack.Reachable := ⟨_, rfl⟩
  have horder : stack.drain.1 = [d, b, a] := rfl
  have hlaw := drained_in_order hstack
  simp only [horder] at hlaw
  obtain ⟨-, -, -, hcontains, -, -, -, -, -, hpushed⟩ := hlaw
  obtain ⟨hcount, -, hdrain⟩ := hpushed [e, a, again, c, b]
  have hnew : firstNew ["D", "B", "A"] [e, a, again, c, b] = [e, c] := by decide +kernel
  refine ⟨horder, (hcontains "C").trans ?_, hcount.trans ?_, hdrain.trans ?_⟩
  · rw [show decide ("C" ∈ [d, b, a].map Step.id) = false from by decide +kernel]
  · exact congrArg Answer.pushed (by decide +kernel)
  · exact congrArg (fun new : List Step => (new.reverse ++ [d, b, a], empty)) hnew

end GlobalTransaction.Saga.CompensationStack
