/-!
# Points of a transaction's life

## Main definitions

* `Lifecycle.Point` — the points at which hooks are called, with `name` and `text`
* `Lifecycle.Point.ofText?` — the point of a text

## Main results

* `Lifecycle.Point.ofText?_text` — points and texts correspond
-/

namespace GlobalTransaction.Lifecycle

/-- A point in the life of a global transaction. -/
inductive Point
  | beforeBegin
  | afterBegin
  | beforeCommit
  | afterCommit
  | beforeRollback
  | afterRollback
  /-- After commit or rollback, whatever the outcome. -/
  | afterCompletion
deriving DecidableEq

namespace Point

/-- All points, in the order of a transaction's life. -/
def all : List Point :=
  [.beforeBegin, .afterBegin, .beforeCommit, .afterCommit, .beforeRollback, .afterRollback,
    .afterCompletion]

/-- The text of a point. -/
def text : Point → String
  | .beforeBegin => "before_begin"
  | .afterBegin => "after_begin"
  | .beforeCommit => "before_commit"
  | .afterCommit => "after_commit"
  | .beforeRollback => "before_rollback"
  | .afterRollback => "after_rollback"
  | .afterCompletion => "after_completion"

/-- The name of a point. -/
def name : Point → String
  | .beforeBegin => "BeforeBegin"
  | .afterBegin => "AfterBegin"
  | .beforeCommit => "BeforeCommit"
  | .afterCommit => "AfterCommit"
  | .beforeRollback => "BeforeRollback"
  | .afterRollback => "AfterRollback"
  | .afterCompletion => "AfterCompletion"

/-- The point of a text. -/
def ofText? (s : String) : Option Point := all.find? (·.text == s)

@[simp] theorem ofText?_text (p : Point) : ofText? p.text = some p := by
  cases p <;> rfl

end Point

end GlobalTransaction.Lifecycle
