import GlobalTransaction.Saga.CompensationStack
import GlobalTransaction.Saga.Run
import GlobalTransaction.Table

/-!
# Contexts of runs

What belongs to one run while it is worked on: its record, where forward execution
stands, the steps that wait to be undone, and the variables of the process.

A variable holds a JSON value, in which the members of every object are in key order.

## Main definitions

* `Saga.Error` — what can go wrong with a run
* `Saga.Context` — a run that is worked on
* `Context.setVariable`, `Context.readVariable`, `Context.removeVariable`
* `Context.Edit`, `Context.edit` — the changes that need nothing but the context
-/

namespace GlobalTransaction.Saga

/-- What can go wrong with a run. -/
inductive Error
  /-- The state log could not be read or written. -/
  | store (cause : String)
  /-- The run has ended already. -/
  | alreadyEnded (id : InstanceId)
  /-- A variable does not fit the type that was asked for. -/
  | unfit (mismatch : Mismatch)
  /-- A variable was to hold a value without a JSON form: an object with a key that is no text. -/
  | keyNotText

/-- The wording of an error. -/
def Error.message : Error → String
  | .store cause => "State log store error: " ++ cause
  | .alreadyEnded id => "State machine instance " ++ id.text ++ " has already ended"
  | .unfit mismatch => "Serialization error: " ++ mismatch.message
  | .keyNotText => "Serialization error: key must be a string"

/-- A run that is worked on. -/
structure Context where
  run : Run
  /-- The state that is executed. -/
  current : Option String
  /-- The failure of forward execution. -/
  captured : Option Failure
  /-- The steps that wait to be undone, from the first use on. -/
  stack : Option CompensationStack
  /-- The state from which compensation starts. -/
  triggerState : Option String
  /-- The variables with their values. -/
  values : Table String Json
  /-- The run has ended through this context. -/
  ended : Bool

namespace Context

/-- The context of a run that is taken up. -/
def ofRun (run : Run) : Context where
  run
  current := none
  captured := none
  stack := none
  triggerState := none
  values := []
  ended := false

/-- The steps that wait to be undone, none before the first use. -/
def stackOrEmpty (c : Context) : CompensationStack := c.stack.getD .empty

/-! ### Variables -/

/-- The context with a value for a variable. -/
def setVariable (c : Context) (name : String) (value : Json) : Context :=
  { c with values := c.values.insert name value.sortKeys }

/-- The context with a value for a variable. A value without a JSON form is refused. -/
def storeVariable (c : Context) (name : String) : Option Json → Context × Except Error Unit
  | some value => (c.setVariable name value, .ok ())
  | none => (c, .error .keyNotText)

/-- The value of a variable in a type; `none` if it is not set. -/
def readVariable {α : Type} (decode : Json.Decoder α) (c : Context) (name : String) :
    Except Error (Option α) :=
  match c.values.lookup name with
  | none => .ok none
  | some value =>
    match decode value with
    | .ok a => .ok (some a)
    | .error mismatch => .error (.unfit mismatch)

/-- The context without a variable. -/
def removeVariable (c : Context) (name : String) : Context :=
  { c with values := c.values.erase name }

@[simp] theorem readVariable_setVariable {α : Type} (decode : Json.Decoder α) (c : Context)
    (name : String) (value : Json) :
    (c.setVariable name value).readVariable decode name =
      match decode value.sortKeys with
      | .ok a => .ok (some a)
      | .error mismatch => .error (.unfit mismatch) := by
  simp [readVariable, setVariable]

/-! ### Changes -/

/-- The changes that need nothing but the context. -/
inductive Edit
  /-- Forward execution gets to a state. -/
  | setCurrent (state : String)
  | setTriggerState (state : Option String)
  /-- Forward execution fails. -/
  | capture (failure : Failure)
  /-- The captured failure is taken away. -/
  | takeCaptured
  | setStatus (status : Status)
  | setCompensation (status : Status)
  | setException (failure : Failure)
  | pushStep (s : Step)
  | clearHistory
  | markStep (stepId : String) (status : Status)
  | stack (command : CompensationStack.Command)
  /-- A variable gets a value, if that has a JSON form. -/
  | setVariable (name : String) (value : Option Json)
  | removeVariable (name : String)
  | markEnded

/-- The answers to changes. -/
inductive Answer
  | done
  | failure (failure : Option Failure)
  | marked (count : Nat)
  | stack (answer : CompensationStack.Answer)
  | value (value : Option Json)
  | stored (result : Except Error Unit)

/-- The effect of one change. -/
def edit (c : Context) : Edit → Context × Answer
  | .setCurrent state => ({ c with current := some state }, .done)
  | .setTriggerState state => ({ c with triggerState := state }, .done)
  | .capture failure => ({ c with captured := some failure }, .done)
  | .takeCaptured => ({ c with captured := none }, .failure c.captured)
  | .setStatus status => ({ c with run := { c.run with status := some status } }, .done)
  | .setCompensation status =>
    ({ c with run := { c.run with compensation := some status } }, .done)
  | .setException failure => ({ c with run := { c.run with exception := some failure } }, .done)
  | .pushStep s => ({ c with run := c.run.pushStep s }, .done)
  | .clearHistory => ({ c with run := { c.run with history := [] } }, .done)
  | .markStep stepId status =>
    ({ c with run := c.run.markStep stepId status }, .marked (c.run.countSteps stepId))
  | .stack command =>
    let (stack, answer) := c.stackOrEmpty.step command
    ({ c with stack := some stack }, .stack answer)
  | .setVariable name value =>
    let (c, result) := c.storeVariable name value
    (c, .stored result)
  | .removeVariable name => (c.removeVariable name, .value (c.values.lookup name))
  | .markEnded => ({ c with ended := true }, .done)

end Context

end GlobalTransaction.Saga
