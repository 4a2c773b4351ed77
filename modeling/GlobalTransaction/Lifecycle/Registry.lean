import GlobalTransaction.Journal
import GlobalTransaction.Text.Decimal

/-!
# Lists of hooks

The hooks of one transaction attempt, in the order of registration. The list is
attached with the first hook and detached when it is cleared.

An attempt that runs in a scope has such a list without naming it. Outside every
scope there is none.

## Main definitions

* `Lifecycle.Error` — why a hook was not registered
* `Lifecycle.Registry` — the hooks of an attempt
* `Registry.register`, `Registry.clear`, `Registry.hooks`
* `Lifecycle.Scope` — the list of the innermost scope, if there is a scope
* `Scope.register`, `Scope.clear`, `Scope.hooks`

## Main results

* `Registry.hooks_register_some` — a registered hook comes last
-/

namespace GlobalTransaction.Lifecycle

variable {α : Type}

/-- Why a hook was not registered. -/
inductive Error
  | missingHook
  | noActiveScope
deriving DecidableEq

/-- The wording of the refusal. -/
def Error.message : Error → String
  | .missingHook => "no transaction hook was supplied"
  | .noActiveScope => "no transaction attempt scope is active"

/-- The hooks of one attempt. -/
structure Registry (α : Type) where
  /-- The hooks in the order of registration, once there was one. -/
  attached : Option (List α)
deriving DecidableEq

namespace Registry

/-- The registry without hooks. -/
def empty : Registry α := ⟨none⟩

/-- The hooks in the order of registration. -/
def hooks (r : Registry α) : List α := r.attached.getD []

/-- The number of hooks. -/
def size (r : Registry α) : Nat := r.hooks.length

/-- There is no hook. -/
def isEmpty (r : Registry α) : Bool := r.hooks.isEmpty

/-- A list is attached. -/
def isAttached (r : Registry α) : Bool := r.attached.isSome

/-- One more hook, unless none was supplied. -/
def register (r : Registry α) : Option α → Outcome (Registry α) (Except Error Unit)
  | none => { state := r, answer := .error .missingHook, journal := [.logged .hookMissing] }
  | some hook => { state := ⟨some (r.hooks ++ [hook])⟩, answer := .ok () }

/-- The registry without its list. -/
def clear (_ : Registry α) : Registry α := empty

/-- Whether a list is attached, and the number of hooks. -/
def text (r : Registry α) : String :=
  "HookRegistry \x7b attached: " ++ (if r.isAttached then "true" else "false")
    ++ ", hooks: " ++ String.ofList (Text.decimal r.size) ++ " \x7d"

@[simp] theorem hooks_clear (r : Registry α) : r.clear.hooks = [] := rfl

/-- A registered hook comes last. -/
@[simp] theorem hooks_register_some (r : Registry α) (hook : α) :
    (r.register (some hook)).state.hooks = r.hooks ++ [hook] := rfl

@[simp] theorem register_none_state (r : Registry α) : (r.register none).state = r := rfl

end Registry

/-- The list of the innermost scope; `none` outside every scope. -/
abbrev Scope (α : Type) := Option (Registry α)

namespace Scope

/-- The list with which a scope begins. -/
def fresh : Scope α := some .empty

/-- There is a scope. -/
def isActive (s : Scope α) : Bool := s.isSome

/-- The hooks of the innermost scope. -/
def hooks (s : Scope α) : List α := s.elim [] Registry.hooks

/-- One more hook in the innermost scope, unless none was supplied. -/
def register (s : Scope α) (hook : Option α) : Outcome (Scope α) (Except Error Unit) :=
  match s with
  | none => { state := s, answer := .error .noActiveScope, journal := [.logged .hookOutsideScope] }
  | some r =>
    let o := r.register hook
    { state := some o.state, answer := o.answer, journal := o.journal }

/-- The innermost scope without hooks. -/
def clear (s : Scope α) : Scope α := s.map Registry.clear

@[simp] theorem hooks_none : hooks (none : Scope α) = [] := rfl

@[simp] theorem hooks_fresh : hooks (fresh : Scope α) = [] := rfl

@[simp] theorem hooks_some (r : Registry α) : hooks (some r) = r.hooks := rfl

@[simp] theorem hooks_clear (s : Scope α) : s.clear.hooks = [] := by
  cases s <;> rfl

@[simp] theorem isActive_register (s : Scope α) (hook : Option α) :
    (s.register hook).state.isActive = s.isActive := by
  cases s <;> rfl

@[simp] theorem isActive_clear (s : Scope α) : s.clear.isActive = s.isActive := by
  cases s <;> rfl

end Scope

end GlobalTransaction.Lifecycle
