import GlobalTransaction.Saga.Status
import GlobalTransaction.Time.Written

/-!
# Steps of a run

A run executes steps. A step that called a service can name another step that undoes
it; then it is compensable. A step that was executed to undo another one names that
one.

## Main definitions

* `Saga.StepKind`, `Saga.Step` — the kinds of steps, and one executed step
* `Step.ofKind`, `Step.compensable` — a step that has just been executed
* `Step.isCompensable`, `Step.needsCompensation` — the steps that can and must be undone
* `Step.asStep` — its reading from a JSON value

## Main results

* `Step.needsCompensation_iff` — when a step must be undone
-/

namespace GlobalTransaction.Saga

/-- The kind of a step. -/
inductive StepKind
  | serviceTask
  | scriptTask
  | subMachine
  /-- Forward execution hands over to compensation. -/
  | compensationTrigger
deriving DecidableEq

namespace StepKind

instance : Inhabited StepKind := ⟨.serviceTask⟩

/-- All kinds. -/
def all : List StepKind := [.serviceTask, .scriptTask, .subMachine, .compensationTrigger]

/-- The name of a kind in JSON texts. -/
def name : StepKind → String
  | .serviceTask => "ServiceTask"
  | .scriptTask => "ScriptTask"
  | .subMachine => "SubStateMachine"
  | .compensationTrigger => "CompensationTrigger"

/-- The kind of a name in JSON texts. -/
def ofName? (s : String) : Option StepKind := all.find? (·.name == s)

/-- A kind as a JSON value. -/
def toJson (k : StepKind) : Json := .ofText k.name

/-- The kind that a JSON value denotes. -/
def asStepKind : Json.Decoder StepKind := Json.asVariant (all.map fun k => (k.name, k))

@[simp] theorem asStepKind_toJson (k : StepKind) : asStepKind k.toJson = .ok k := by
  cases k <;> rfl

end StepKind

/-- One executed step. -/
structure Step where
  id : String
  name : String
  kind : StepKind
  status : Status
  /-- The name of the step that undoes this one. -/
  undo : Option String
  /-- The identifier of the step that this one undoes. -/
  compensates : Option String
  /-- The step may have written data even when it failed. -/
  forUpdate : Bool
  /-- How far this step has been undone. -/
  compensation : Option Status
  startedAt : Timestamp
deriving DecidableEq

namespace Step

/-- A step of a kind that has reached a status. -/
def ofKind (id name : String) (kind : StepKind) (status : Status) (startedAt : Timestamp) :
    Step where
  id
  name
  kind
  status
  undo := none
  compensates := none
  forUpdate := false
  compensation := none
  startedAt

/-- A service step that ended well and that another step undoes. -/
def compensable (id name undo : String) (startedAt : Timestamp) : Step :=
  { ofKind id name .serviceTask .succeeded startedAt with undo := some undo }

/-- Another step is known that undoes this one. -/
def isCompensable (s : Step) : Bool := decide (s.kind = .serviceTask) && s.undo.isSome

/-- The step was executed to undo another one. -/
def isForCompensation (s : Step) : Bool := s.compensates.isSome

/-- The step has been undone. -/
def isCompensated (s : Step) : Bool := decide (s.compensation = some .succeeded)

/-- The step must be undone: it can be, it does not itself undo, it has not been undone, and it may
have left something behind. A step that failed has only if it was to write. -/
def needsCompensation (s : Step) : Bool :=
  s.isCompensable && !s.isForCompensation && !s.isCompensated
    && (decide (s.status ≠ .failed) || s.forUpdate)

theorem needsCompensation_iff (s : Step) :
    s.needsCompensation ↔
      s.kind = .serviceTask ∧ s.undo.isSome ∧ s.compensates = none ∧
        s.compensation ≠ some .succeeded ∧ (s.status = .failed → s.forUpdate) := by
  have hstatus : (¬s.status = .failed ∨ s.forUpdate = true) ↔
      (s.status = .failed → s.forUpdate = true) := by
    rw [Decidable.imp_iff_not_or]
  simp [needsCompensation, isCompensable, isForCompensation, isCompensated, and_assoc, hstatus]

/-! ### Steps in a JSON text -/

/-- A step as a JSON value. -/
def toJson (s : Step) : Json :=
  .ofFields
    [("id", .ofText s.id), ("name", .ofText s.name), ("state_type", s.kind.toJson),
      ("status", s.status.toJson), ("compensation_state", .ofText? s.undo),
      ("compensates", .ofText? s.compensates), ("for_update", .bool s.forUpdate),
      ("compensation_status", s.compensation.elim .null Status.toJson),
      ("started_at", s.startedAt.toJson)]

/-- The fields of a step. -/
def fields : List Json.Field :=
  [Json.field "id" Json.asText, Json.field "name" Json.asText,
    Json.field "state_type" StepKind.asStepKind, Json.field "status" Status.asStatus,
    Json.field "compensation_state" (Json.asOptional Json.asText),
    Json.field "compensates" (Json.asOptional Json.asText), Json.field "for_update" Json.asBool,
    Json.field "compensation_status" (Json.asOptional Status.asStatus),
    Json.field "started_at" Timestamp.asTimestamp]

/-- The step that a JSON value denotes. -/
def asStep : Json.Decoder Step := fun j => do
  let r ← Json.asRecord "the record of a step" fields j
  let id ← r.required "id" Json.asText
  let name ← r.required "name" Json.asText
  let kind ← r.required "state_type" StepKind.asStepKind
  let status ← r.required "status" Status.asStatus
  let undo ← r.optional "compensation_state" Json.asText
  let compensates ← r.optional "compensates" Json.asText
  let forUpdate ← r.required "for_update" Json.asBool
  let compensation ← r.optional "compensation_status" Status.asStatus
  let startedAt ← r.required "started_at" Timestamp.asTimestamp
  return { id, name, kind, status, undo, compensates, forUpdate, compensation, startedAt }

end Step

end GlobalTransaction.Saga
