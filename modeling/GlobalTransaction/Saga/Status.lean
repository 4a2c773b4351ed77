import GlobalTransaction.Json.Decoder

/-!
# Execution statuses

The state of a run or of one of its steps, both on the way forward and while it is
undone.

## Main definitions

* `Saga.Status` — the statuses, with `code` and `text`
* `Saga.Status.isTerminal` — the statuses in which an execution stays
* `Saga.isOpen` — a forward status that still waits for an outcome
-/

namespace GlobalTransaction.Saga

/-- The state of an execution. -/
inductive Status
  /-- It still goes on. -/
  | running
  /-- It has ended well. -/
  | succeeded
  /-- It has ended badly. -/
  | failed
  /-- Its outcome is not known. -/
  | unknown
deriving DecidableEq

namespace Status

/-- All statuses. -/
def all : List Status := [.running, .succeeded, .failed, .unknown]

/-- The code of a status in state logs. -/
def code : Status → String
  | .running => "RU"
  | .succeeded => "SU"
  | .failed => "FA"
  | .unknown => "UN"

/-- The text of a status, which is also its name in JSON texts. -/
def text : Status → String
  | .running => "Running"
  | .succeeded => "Succeed"
  | .failed => "Failed"
  | .unknown => "Unknown"

/-- An execution stays in this status. -/
def isTerminal : Status → Bool
  | .succeeded | .failed => true
  | .running | .unknown => false

/-- The status of a name in JSON texts. -/
def ofText? (s : String) : Option Status := all.find? (·.text == s)

/-- A status as a JSON value. -/
def toJson (s : Status) : Json := .ofText s.text

/-- The status that a JSON value denotes. -/
def asStatus : Json.Decoder Status := Json.asVariant (all.map fun s => (s.text, s))

@[simp] theorem ofText?_text (s : Status) : ofText? s.text = some s := by
  cases s <;> rfl

@[simp] theorem asStatus_toJson (s : Status) : asStatus s.toJson = .ok s := by
  cases s <;> rfl

@[simp] theorem asOptional_asStatus (s : Option Status) :
    Json.asOptional asStatus (s.elim .null toJson) = .ok s := by
  rcases s with _ | s
  · rfl
  · cases s <;> rfl

end Status

/-- A forward status that still waits for an outcome: none yet, or running. -/
def isOpen : Option Status → Bool
  | none | some .running => true
  | _ => false

end GlobalTransaction.Saga
