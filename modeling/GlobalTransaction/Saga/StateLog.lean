import GlobalTransaction.Saga.Run
import GlobalTransaction.Table

/-!
# State logs

Where the histories of runs and the records of finished runs are kept. Reading a
history and writing a record may fail.

## Main definitions

* `Saga.StateLog` — a state log over some kind of state
* `Saga.MemoryLog` — a log in memory, which never fails
* `Saga.SwitchedLog` — the same with switches that make reading or writing fail

## Main results

* `MemoryLog.history_record` — a history goes up by the steps that are recorded for it
* `MemoryLog.finished_recordFinished` — the last record of a run counts
-/

namespace GlobalTransaction.Saga

/-- A state log whose state is of type `σ`. A failure has a cause. -/
structure StateLog (σ : Type) where
  /-- Reads the steps of a run in the order of execution. -/
  history : σ → InstanceId → σ × Except String (List Step)
  /-- Writes the record of a finished run. -/
  recordFinished : σ → Run → σ × Except String Unit

/-! ### A log in memory -/

/-- A log in memory. -/
structure MemoryLog where
  /-- The recorded steps of each run. -/
  histories : Table InstanceId (List Step)
  /-- The record of each finished run. -/
  finishedRuns : Table InstanceId Run

namespace MemoryLog

/-- The log without entries. -/
def empty : MemoryLog := ⟨[], []⟩

/-- The steps that were recorded for a run. -/
def history (log : MemoryLog) (id : InstanceId) : List Step := (log.histories.lookup id).getD []

/-- The log with one more step of a run. -/
def record (log : MemoryLog) (id : InstanceId) (s : Step) : MemoryLog :=
  { log with histories := log.histories.insert id (log.history id ++ [s]) }

/-- The record of a finished run. -/
def finished (log : MemoryLog) (id : InstanceId) : Option Run := log.finishedRuns.lookup id

/-- The number of finished runs. -/
def finishedCount (log : MemoryLog) : Nat := log.finishedRuns.length

/-- The log with the record of a finished run, in place of an earlier one. -/
def recordFinished (log : MemoryLog) (run : Run) : MemoryLog :=
  { log with finishedRuns := log.finishedRuns.insert run.id run }

/-- The log in memory as a state log. -/
def stateLog : StateLog MemoryLog where
  history log id := (log, .ok (log.history id))
  recordFinished log run := (log.recordFinished run, .ok ())

/-- Recording a step for a run makes its history longer by that step, and no other history. -/
theorem history_record (log : MemoryLog) (id : InstanceId) (s : Step) (other : InstanceId) :
    (log.record id s).history other =
      if other = id then log.history id ++ [s] else log.history other := by
  rw [history, record, Table.lookup_insert]
  split
  · rfl
  · rfl

/-- The last record of a finished run counts. -/
theorem finished_recordFinished (log : MemoryLog) (run : Run) (other : InstanceId) :
    (log.recordFinished run).finished other =
      if other = run.id then some run else log.finished other :=
  Table.lookup_insert log.finishedRuns run.id run other

end MemoryLog

/-! ### A log that can be made to fail -/

/-- A log in memory with switches. -/
structure SwitchedLog where
  log : MemoryLog
  /-- Reading fails. -/
  queryRefused : Bool
  /-- Writing fails. -/
  writeRefused : Bool

namespace SwitchedLog

/-- The log without entries, which does not fail. -/
def empty : SwitchedLog := ⟨.empty, false, false⟩

/-- Reads the steps of a run. -/
def history (s : SwitchedLog) (id : InstanceId) : Except String (List Step) :=
  if s.queryRefused then .error "query refused" else .ok (s.log.history id)

/-- Writes the record of a finished run. -/
def recordFinished (s : SwitchedLog) (run : Run) : SwitchedLog × Except String Unit :=
  if s.writeRefused then (s, .error "write refused")
  else ({ s with log := s.log.recordFinished run }, .ok ())

/-- The log with switches as a state log. -/
def stateLog : StateLog SwitchedLog where
  history s id := (s, s.history id)
  recordFinished := recordFinished

end SwitchedLog

end GlobalTransaction.Saga
