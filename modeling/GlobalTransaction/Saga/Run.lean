import GlobalTransaction.Identity.InstanceId
import GlobalTransaction.Saga.Failure
import GlobalTransaction.Saga.Step

/-!
# Runs

One run of a long process: its steps in the order of execution, how far the way
forward and the way back have got, and the failure that turned it around.

## Main definitions

* `Saga.Run` — the record of a run
* `Run.start` — the record at the beginning
* `Run.markStep` — a step of the history has got further on the way back
* `Run.asRun` — its reading from a JSON value
-/

namespace GlobalTransaction.Saga

/-- The record of a run. -/
structure Run where
  id : InstanceId
  machineName : String
  businessKey : Option String
  /-- The executed steps, the first one first. A record made for recovery has none. -/
  history : List Step
  /-- The status of the way forward. -/
  status : Option Status
  /-- The status of the way back. -/
  compensation : Option Status
  /-- The failure that turned the run around. -/
  exception : Option Failure
  startedAt : Timestamp
  endedAt : Option Timestamp
deriving DecidableEq

namespace Run

/-- The record of a run that begins. -/
def start (id : InstanceId) (machineName : String) (startedAt : Timestamp) : Run where
  id
  machineName
  businessKey := none
  history := []
  status := none
  compensation := none
  exception := none
  startedAt
  endedAt := none

/-- The run with one more executed step. -/
def pushStep (run : Run) (s : Step) : Run := { run with history := run.history ++ [s] }

/-- The run in which every step with an identifier has got to a status on the way back. -/
def markStep (run : Run) (stepId : String) (status : Status) : Run :=
  { run with
    history := run.history.map fun s =>
      if s.id = stepId then { s with compensation := some status } else s }

/-- How many executed steps have an identifier. -/
def countSteps (run : Run) (stepId : String) : Nat :=
  run.history.countP fun s => decide (s.id = stepId)

/-! ### Runs in a JSON text -/

/-- A run as a JSON value. -/
def toJson (run : Run) : Json :=
  .ofFields
    [("id", run.id.toJson), ("machine_name", .ofText run.machineName),
      ("business_key", .ofText? run.businessKey),
      ("state_list", .array (run.history.map Step.toJson)),
      ("status", run.status.elim .null Status.toJson),
      ("compensation_status", run.compensation.elim .null Status.toJson),
      ("exception", run.exception.elim .null Failure.toJson),
      ("started_at", run.startedAt.toJson),
      ("ended_at", run.endedAt.elim .null Timestamp.toJson)]

/-- The fields of a run. -/
def fields : List Json.Field :=
  [Json.field "id" InstanceId.asInstanceId, Json.field "machine_name" Json.asText,
    Json.field "business_key" (Json.asOptional Json.asText),
    Json.field "state_list" (Json.asList Step.asStep),
    Json.field "status" (Json.asOptional Status.asStatus),
    Json.field "compensation_status" (Json.asOptional Status.asStatus),
    Json.field "exception" (Json.asOptional Failure.asFailure),
    Json.field "started_at" Timestamp.asTimestamp,
    Json.field "ended_at" (Json.asOptional Timestamp.asTimestamp)]

/-- The run that a JSON value denotes. -/
def asRun : Json.Decoder Run := fun j => do
  let r ← Json.asRecord "the record of a run" fields j
  let id ← r.required "id" InstanceId.asInstanceId
  let machineName ← r.required "machine_name" Json.asText
  let businessKey ← r.optional "business_key" Json.asText
  let history ← r.required "state_list" (Json.asList Step.asStep)
  let status ← r.optional "status" Status.asStatus
  let compensation ← r.optional "compensation_status" Status.asStatus
  let exception ← r.optional "exception" Failure.asFailure
  let startedAt ← r.required "started_at" Timestamp.asTimestamp
  let endedAt ← r.optional "ended_at" Timestamp.asTimestamp
  return { id, machineName, businessKey, history, status, compensation, exception, startedAt,
           endedAt }

end Run

end GlobalTransaction.Saga
