import GlobalTransaction.Json.Decoder

/-!
# Outcomes of branch transactions

The state of a branch transaction as its coordinator tracks it. Each status has a
number for the wire, a name in JSON texts, and a text of its own for people.

## Main definitions

* `Branch.Status` — the statuses, with `code`, `name` and `text`
* `Branch.Status.ofCode` — the status of a number
* `Branch.Status.isFinal`, `Branch.Status.isRetryable` — what they mean for phase two
* `Branch.UnknownCode` — the report about a number that belongs to no status or mode

## Main results

* `Branch.Status.ofCode_eq_ok_iff` — numbers and statuses correspond
-/

namespace GlobalTransaction.Branch

/-- A number that names nothing of its kind. -/
structure UnknownCode where
  /-- What was to be named. -/
  kind : String
  /-- The number. -/
  code : UInt8
deriving DecidableEq

/-- The wording of the report. -/
def UnknownCode.message (e : UnknownCode) : String :=
  "Unknown " ++ e.kind ++ " code: " ++ String.ofList (Text.decimal e.code.toNat)

/-- The outcome of a branch transaction. -/
inductive Status
  | unknown
  | registered
  | phaseOneDone
  | phaseOneFailed
  | phaseOneTimeout
  | committed
  | commitFailedRetryable
  | commitFailedUnretryable
  | rolledBack
  | rollbackFailedRetryable
  | rollbackFailedUnretryable
deriving DecidableEq

namespace Status

instance : Inhabited Status := ⟨.unknown⟩

/-- All statuses, in the order of their numbers. -/
def all : List Status :=
  [.unknown, .registered, .phaseOneDone, .phaseOneFailed, .phaseOneTimeout, .committed,
    .commitFailedRetryable, .commitFailedUnretryable, .rolledBack, .rollbackFailedRetryable,
    .rollbackFailedUnretryable]

/-- The number of a status on the wire. -/
def code : Status → UInt8
  | .unknown => 0
  | .registered => 1
  | .phaseOneDone => 2
  | .phaseOneFailed => 3
  | .phaseOneTimeout => 4
  | .committed => 5
  | .commitFailedRetryable => 6
  | .commitFailedUnretryable => 7
  | .rolledBack => 8
  | .rollbackFailedRetryable => 9
  | .rollbackFailedUnretryable => 10

/-- The status of a number. -/
def ofCode (code : UInt8) : Except UnknownCode Status :=
  match all[code.toNat]? with
  | some s => .ok s
  | none => .error ⟨"branch status", code⟩

/-- The name of a status in JSON texts. -/
def name : Status → String
  | .unknown => "Unknown"
  | .registered => "Registered"
  | .phaseOneDone => "PhaseOneDone"
  | .phaseOneFailed => "PhaseOneFailed"
  | .phaseOneTimeout => "PhaseOneTimeout"
  | .committed => "PhaseTwoCommitted"
  | .commitFailedRetryable => "PhaseTwoCommitFailedRetryable"
  | .commitFailedUnretryable => "PhaseTwoCommitFailedUnretryable"
  | .rolledBack => "PhaseTwoRollbacked"
  | .rollbackFailedRetryable => "PhaseTwoRollbackFailedRetryable"
  | .rollbackFailedUnretryable => "PhaseTwoRollbackFailedUnretryable"

/-- The text of a status for people. -/
def text : Status → String
  | .unknown => "Unknown"
  | .registered => "Registered"
  | .phaseOneDone => "PhaseOne_Done"
  | .phaseOneFailed => "PhaseOne_Failed"
  | .phaseOneTimeout => "PhaseOne_Timeout"
  | .committed => "PhaseTwo_Committed"
  | .commitFailedRetryable => "PhaseTwo_CommitFailed_Retryable"
  | .commitFailedUnretryable => "PhaseTwo_CommitFailed_Unretryable"
  | .rolledBack => "PhaseTwo_Rollbacked"
  | .rollbackFailedRetryable => "PhaseTwo_RollbackFailed_Retryable"
  | .rollbackFailedUnretryable => "PhaseTwo_RollbackFailed_Unretryable"

/-- Phase two has reached an answer that will not change. -/
def isFinal : Status → Bool
  | .committed | .commitFailedUnretryable | .rolledBack | .rollbackFailedUnretryable => true
  | _ => false

/-- Phase two is to be tried again. -/
def isRetryable : Status → Bool
  | .commitFailedRetryable | .rollbackFailedRetryable => true
  | _ => false

/-- The status of a name in JSON texts. -/
def ofName? (s : String) : Option Status := all.find? (·.name == s)

/-- A status as a JSON value. -/
def toJson (s : Status) : Json := .ofText s.name

/-- The status that a JSON value denotes. -/
def asStatus : Json.Decoder Status := Json.asVariant (all.map fun s => (s.name, s))

@[simp] theorem ofCode_code (s : Status) : ofCode s.code = .ok s := by
  cases s <;> rfl

theorem code_get (k : Fin 11) : (all.get k).code.toNat = k.val := by
  revert k
  decide

/-- A number belongs to a status exactly when it is the number of that status. -/
theorem ofCode_eq_ok_iff {c : UInt8} {s : Status} : ofCode c = .ok s ↔ c = s.code := by
  constructor
  · intro h
    unfold ofCode at h
    split at h
    · rename_i found hfound
      obtain ⟨hlt, rfl⟩ := List.getElem?_eq_some_iff.1 hfound
      cases h
      exact UInt8.toNat_inj.1 (code_get ⟨c.toNat, hlt⟩).symm
    · cases h
  · rintro rfl
    exact ofCode_code s

@[simp] theorem asStatus_toJson (s : Status) : asStatus s.toJson = .ok s := by
  cases s <;> rfl

end Status

end GlobalTransaction.Branch
