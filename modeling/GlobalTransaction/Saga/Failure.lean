import GlobalTransaction.Json.Decoder

/-!
# Failures of forward execution

## Main definitions

* `Saga.Failure` — a message, with the state that raised it where that is known
* `Failure.text` — its form for people
* `Failure.asFailure` — its reading from a JSON value
-/

namespace GlobalTransaction.Saga

/-- Why forward execution was given up. -/
structure Failure where
  /-- The state that raised it, if known. -/
  stateName : Option String
  message : String
deriving DecidableEq

namespace Failure

/-- The form of a failure for people. -/
def text (f : Failure) : String :=
  match f.stateName with
  | some state => state ++ ": " ++ f.message
  | none => f.message

/-- A failure as a JSON value. -/
def toJson (f : Failure) : Json :=
  .ofFields [("state_name", .ofText? f.stateName), ("message", .ofText f.message)]

/-- The fields of a failure. -/
def fields : List Json.Field :=
  [Json.field "state_name" (Json.asOptional Json.asText), Json.field "message" Json.asText]

/-- The failure that a JSON value denotes. -/
def asFailure : Json.Decoder Failure := fun j => do
  let r ← Json.asRecord "struct ExecutionFailure" fields j
  let stateName ← r.optional "state_name" Json.asText
  let message ← r.required "message" Json.asText
  return { stateName, message }

@[simp] theorem asFailure_toJson (f : Failure) : asFailure f.toJson = .ok f := by
  obtain ⟨_ | state, message⟩ := f <;> rfl

@[simp] theorem asOptional_asFailure (f : Option Failure) :
    Json.asOptional asFailure (f.elim .null toJson) = .ok f := by
  rcases f with _ | f
  · rfl
  · obtain ⟨_ | state, message⟩ := f <;> rfl

end Failure

end GlobalTransaction.Saga
