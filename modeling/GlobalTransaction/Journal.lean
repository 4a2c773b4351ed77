/-!
# The journal of counters and messages

What the parts of the library report about their work beside their answers: counters
that go up by one, and messages for a log. Every operation returns the events of its
own, in order; a run concatenates them.

## Main definitions

* `Counter`, `LogLine`, `Event` — what can be reported
* `Counter.name`, `LogLine.text` — the outward names
* `Journal` — a sequence of events, with `Journal.total` and `Journal.lines`
* `Outcome` — what an operation on a state leads to
* `Outcome.run` — the outcome of a sequence of commands

## Main results

* `Journal.total_append` — counts add up
* `Outcome.run_append` — a run can be cut in two
-/

namespace GlobalTransaction

/-- The counters. -/
inductive Counter
  | noAvailableNode
  | hold
  | release
  | keeperFatal
  | cacheHit
  | cacheMiss
  | compensationTriggered
  | compensationSkipped
  | machineEnded
deriving DecidableEq

/-- All counters. -/
def Counter.all : List Counter :=
  [.noAvailableNode, .hold, .release, .keeperFatal, .cacheHit, .cacheMiss, .compensationTriggered,
    .compensationSkipped, .machineEnded]

/-- The outward name of a counter. -/
def Counter.name : Counter → String
  | .noAvailableNode => "discovery_no_available_node_total"
  | .hold => "resource_keeper_hold_total"
  | .release => "resource_keeper_release_total"
  | .keeperFatal => "resource_keeper_fatal_total"
  | .cacheHit => "branch_status_cache_hit_total"
  | .cacheMiss => "branch_status_cache_miss_total"
  | .compensationTriggered => "saga_compensation_triggered_total"
  | .compensationSkipped => "saga_compensation_skipped_total"
  | .machineEnded => "saga_state_machine_ended_total"

/-- The messages for a log. -/
inductive LogLine
  | routerBuilt
  | noAvailableNode
  | resourceHeld
  | resourceReleased
  | keeperInconsistent
  | nothingToCompensate
  | machineEnded
  | compensationTriggered
  | hookMissing
  | hookOutsideScope
  | hooksTriggered
deriving DecidableEq

/-- The outward text of a message, behind its level. -/
def LogLine.text : LogLine → String
  | .routerBuilt => "DEBUG consistent hash router built"
  | .noAvailableNode => "WARN no coordinator node available"
  | .resourceHeld => "DEBUG resource held"
  | .resourceReleased => "DEBUG resource released"
  | .keeperInconsistent => "ERROR resource keeper inconsistency"
  | .nothingToCompensate => "INFO nothing to compensate, ending state machine"
  | .machineEnded => "INFO state machine ended"
  | .compensationTriggered => "WARN compensation triggered"
  | .hookMissing => "WARN rejected transaction hook registration without a hook"
  | .hookOutsideScope => "WARN transaction hook registered outside an attempt scope"
  | .hooksTriggered => "DEBUG triggering transaction hooks"

/-- One report: a counter goes up by one, or a message is logged. -/
inductive Event
  | counted (counter : Counter)
  | logged (line : LogLine)
deriving DecidableEq

/-- A sequence of events. -/
abbrev Journal := List Event

namespace Journal

/-- How often a counter went up. -/
def total (journal : Journal) (counter : Counter) : Nat := journal.count (.counted counter)

/-- The messages in their order. -/
def lines (journal : Journal) : List LogLine :=
  journal.filterMap fun
    | .logged line => some line
    | .counted _ => none

@[simp] theorem total_append (first second : Journal) (counter : Counter) :
    total (first ++ second) counter = total first counter + total second counter :=
  List.count_append

end Journal

/-! ### Operations on a state -/

/-- What an operation on a state leads to: the state behind it, its answer, and its events. -/
structure Outcome (σ α : Type) where
  /-- The state behind the operation. -/
  state : σ
  /-- The answer. -/
  answer : α
  /-- The events in their order. -/
  journal : Journal := []

namespace Outcome

variable {σ α β : Type}

/-- The outcome with a changed answer. -/
def map (f : α → β) (o : Outcome σ α) : Outcome σ β := ⟨o.state, f o.answer, o.journal⟩

/-- The outcome of commands that follow each other, with the answer of each. -/
def run {κ : Type} (step : σ → κ → Outcome σ α) (start : σ) : List κ → Outcome σ (List α)
  | [] => { state := start, answer := [] }
  | command :: commands =>
    let here := step start command
    let rest := run step here.state commands
    ⟨rest.state, here.answer :: rest.answer, here.journal ++ rest.journal⟩

variable {κ : Type} {step : σ → κ → Outcome σ α}

/-- A run over two sequences is the run over the first and then over the second. -/
theorem run_append (start : σ) (first second : List κ) :
    run step start (first ++ second) =
      ⟨(run step (run step start first).state second).state,
        (run step start first).answer ++ (run step (run step start first).state second).answer,
        (run step start first).journal ++
          (run step (run step start first).state second).journal⟩ := by
  induction first generalizing start with
  | nil => rfl
  | cons command commands ih => simp [run, ih, List.append_assoc]

/-- A fact that every command keeps holds behind every run. -/
theorem run_induction {P : σ → Prop} (hstep : ∀ s c, P s → P (step s c).state) {start : σ}
    (h : P start) (commands : List κ) : P (run step start commands).state := by
  induction commands generalizing start with
  | nil => exact h
  | cons command commands ih => exact ih (hstep start command h)

end Outcome

end GlobalTransaction
