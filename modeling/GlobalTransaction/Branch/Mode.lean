import GlobalTransaction.Branch.Status

/-!
# Modes of branch transactions

How a branch takes part in a global transaction: by an undo log (`at`), by try,
confirm and cancel (`tcc`), by compensating steps (`saga`), or by the XA protocol
(`xa`).

## Main definitions

* `Branch.Mode` — the modes, with `code` and `text`
* `Branch.Mode.ofCode` — the mode of a number
-/

namespace GlobalTransaction.Branch

/-- The mode in which a branch takes part. -/
inductive Mode
  | automatic
  | tryConfirmCancel
  | saga
  | xa
deriving DecidableEq

namespace Mode

instance : Inhabited Mode := ⟨.automatic⟩

/-- All modes, in the order of their numbers. -/
def all : List Mode := [.automatic, .tryConfirmCancel, .saga, .xa]

/-- The number of a mode on the wire. -/
def code : Mode → UInt8
  | .automatic => 0
  | .tryConfirmCancel => 1
  | .saga => 2
  | .xa => 3

/-- The mode of a number. -/
def ofCode (code : UInt8) : Except UnknownCode Mode :=
  match all[code.toNat]? with
  | some m => .ok m
  | none => .error ⟨"branch type", code⟩

/-- The short text of a mode, which is also its name in JSON texts. -/
def text : Mode → String
  | .automatic => "AT"
  | .tryConfirmCancel => "TCC"
  | .saga => "SAGA"
  | .xa => "XA"

/-- The mode of a text. -/
def ofText? (s : String) : Option Mode := all.find? (·.text == s)

/-- A mode as a JSON value. -/
def toJson (m : Mode) : Json := .ofText m.text

/-- The mode that a JSON value denotes. -/
def asMode : Json.Decoder Mode := Json.asVariant (all.map fun m => (m.text, m))

@[simp] theorem ofCode_code (m : Mode) : ofCode m.code = .ok m := by
  cases m <;> rfl

@[simp] theorem asMode_toJson (m : Mode) : asMode m.toJson = .ok m := by
  cases m <;> rfl

end Mode

end GlobalTransaction.Branch
