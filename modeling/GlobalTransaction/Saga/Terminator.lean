import GlobalTransaction.Journal
import GlobalTransaction.Saga.Context
import GlobalTransaction.Saga.StateLog

/-!
# The end of a run

A run that has come to its end gets its final status, its record is written to the
state log, and the listeners are told.

## Main definitions

* `Saga.Effect` — what an operation on a context and its log leads to
* `Saga.Notice` — what a listener is told
* `Saga.settle` — the final record of a run
* `Saga.Terminator`, `Terminator.finish` — the end of a run
-/

namespace GlobalTransaction.Saga

/-- A listener, by its number, is told the final record of a run. -/
structure Notice where
  listener : Nat
  run : Run
deriving DecidableEq

/-- What an operation on a context and its state log leads to. -/
structure Effect (σ α : Type) where
  /-- The context behind the operation. -/
  context : Context
  /-- The state log behind the operation. -/
  log : σ
  /-- The answer. -/
  answer : Except Error α
  /-- What listeners were told, in order. -/
  notices : List Notice := []
  /-- The events, in order. -/
  journal : Journal := []

/-- The final record of a run that ends. A status that still waits for an outcome becomes the
outcome: a failure if the run carries one. -/
def settle (now : Timestamp) (run : Run) : Run :=
  { run with
    endedAt := some now
    status :=
      if isOpen run.status then
        if run.exception.isSome then some .failed else some .succeeded
      else run.status }

/-- What brings runs to their end. -/
structure Terminator (σ : Type) where
  stateLog : StateLog σ
  /-- The number of listeners. -/
  listeners : Nat

/-- What the listeners are told about a run, one after the other. -/
def Terminator.notices {σ : Type} (t : Terminator σ) (run : Run) : List Notice :=
  (List.range t.listeners).map fun listener => ⟨listener, run⟩

/-- Brings a run to its end. The listeners are told once its record is written. -/
def Terminator.finish {σ : Type} (t : Terminator σ) (now : Timestamp) (c : Context) (log : σ) :
    Effect σ Unit :=
  let context := { c with run := settle now c.run }
  match t.stateLog.recordFinished log context.run with
  | (log, .error cause) => { context, log, answer := .error (.store cause) }
  | (log, .ok ()) =>
    { context
      log
      answer := .ok ()
      notices := t.notices context.run
      journal := [.counted .machineEnded, .logged .machineEnded] }

end GlobalTransaction.Saga
