import GlobalTransaction.Proofs.Runs
import GlobalTransaction.Proofs.Saga.Decision

/-!
# Handling a run

One context is worked on with one trigger: it is decided about its run again and again, and
between the decisions the context is changed. The state log belongs to others too, who may leave
anything in it.

## Main definitions

* `Saga.Handling` — a context and the state log
* `Handling.Command`, `Handling.step` — decisions, changes, and what others do to the log
* `Handling.Allows` — a condition on the changes alone

## Main results

* `Handling.context_induction` — what decisions and allowed changes keep of the context holds
  behind every run
-/

set_option autoImplicit false

namespace GlobalTransaction.Saga

/-- A context that is worked on, and the state log. -/
structure Handling (σ : Type) where
  context : Context
  log : σ

namespace Handling

/-- What can happen while a run is handled. -/
inductive Command (σ : Type)
  | fire (now : Timestamp)
  | edit (change : Context.Edit)
  -- others leave the log as it is given here
  | meanwhile (log : σ)

/-- The answers to commands. -/
inductive Answer
  | decided (result : Except Error Decision) (notices : List Notice)
  | edited (answer : Context.Answer)
  | silent

variable {σ : Type}

/-- The effect of one command. -/
def step (t : Trigger σ) (s : Handling σ) : Command σ → Outcome (Handling σ) Answer
  | .fire now =>
    let e := t.fire now s.context s.log
    ⟨⟨e.context, e.log⟩, .decided e.answer e.notices, e.journal⟩
  | .edit change =>
    let (context, answer) := s.context.edit change
    { state := { s with context }, answer := .edited answer }
  | .meanwhile log => { state := { s with log }, answer := .silent }

/-- The changes meet a condition on the context that they find. Nothing is asked of the rest. -/
def Allows (allowed : Context → Context.Edit → Prop) (s : Handling σ) : Command σ → Prop
  | .edit change => allowed s.context change
  | .fire _ | .meanwhile _ => True

/-- A fact about the context that every decision and every allowed change keeps holds behind every
run with such changes, whatever happens to the log. -/
theorem context_induction {t : Trigger σ} {allowed : Context → Context.Edit → Prop}
    {P : Context → Prop}
    (hfire : ∀ now c log e, t.Fired now c log e → P c → P e.context)
    (hedit : ∀ c change, allowed c change → P c → P (c.edit change).1)
    {start : Handling σ} (h : P start.context) {commands : List (Command σ)}
    (hrun : Outcome.Admits (step t) (Allows allowed) start commands) :
    P (Outcome.run (step t) start commands).state.context := by
  refine Outcome.run_admitted_induction (P := fun s => P s.context) h ?_ hrun
  intro s command hallowed hs
  cases command with
  | fire now => exact hfire now s.context s.log _ (t.fired now s.context s.log) hs
  | edit change => exact hedit s.context change hallowed hs
  | meanwhile log => exact hs

end Handling

end GlobalTransaction.Saga
