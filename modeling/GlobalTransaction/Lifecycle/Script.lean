import GlobalTransaction.Lifecycle.Point
import GlobalTransaction.Lifecycle.Registry

/-!
# Scripts of transaction attempts

What code around transaction attempts does with hooks: it registers and triggers them,
opens scopes, waits, fails, and runs several pieces of work at a time. A hook has such
a script itself, for each point at which it is called.

## Main definitions

* `Lifecycle.Coverage` — which calls a hook reacts to
* `Lifecycle.Action`, `Lifecycle.Supply`, `Lifecycle.Hook` — scripts and hooks
* `Lifecycle.Reply`, `Lifecycle.Observation` — what a script gets to see
* `Action.pauses` — how often a script can wait
-/

namespace GlobalTransaction.Lifecycle

/-- Which calls a hook reacts to, and how. -/
inductive Coverage
  /-- It has a callback for every point, with a script. -/
  | everyPoint
  /-- It has callbacks before a commit and after completion, and no script. -/
  | commitAndCompletion
  /-- It has no callback. -/
  | nothing
  /-- It takes the calls of all points in one place, and has no script. -/
  | dispatch
deriving DecidableEq

mutual

/-- One action of a script. A body is a script of its own. -/
inductive Action
  /-- A hook is registered in the innermost scope. -/
  | register (supply : Supply)
  /-- The hooks of the innermost scope are called. -/
  | trigger (point : Point)
  | clear
  /-- The hooks of the innermost scope are counted. -/
  | hooks
  | inScope
  /-- The hooks of the innermost scope are taken, and each is called. -/
  | fire (point : Point)
  /-- The script waits, and others may go on. -/
  | yield
  /-- The script fails. -/
  | fail
  /-- A body runs to its end in a scope of its own. -/
  | sync (body : List Action)
  /-- A body runs in a scope of its own; where it waits, the script around it waits. -/
  | scope (body : List Action)
  /-- A body runs to its end or to its failure. -/
  | rescue (body : List Action)
  /-- A body runs to its end on a thread of its own, outside every scope. -/
  | thread (body : List Action)
  /-- Several bodies run in turns, from one wait to the next, each in a scope of its own or all in
  the innermost one. -/
  | join (bodies : List (List Action)) (ownScopes : Bool)
  /-- A body in a scope of its own gets so many turns, and is then dropped. -/
  | cancel (body : List Action) (turns : Nat)

/-- Where the hook of a registration comes from. -/
inductive Supply
  | nothing
  /-- The hook that was made last under a name. -/
  | known (name : String)
  /-- A new hook. -/
  | fresh (hook : Hook)

/-- A hook: its name, what it reacts to, and its script for each point. -/
inductive Hook
  | mk (name : String) (coverage : Coverage) (script : Point → List Action)

end

namespace Hook

/-- The name of a hook. -/
def name : Hook → String
  | mk name _ _ => name

/-- What a hook reacts to. -/
def coverage : Hook → Coverage
  | mk _ coverage _ => coverage

/-- The script of a hook for a point. -/
def script : Hook → Point → List Action
  | mk _ _ script => script

/-- The text that a hook leaves when it is called at a point, if it reacts. -/
def mark (hook : Hook) (point : Point) : Option String :=
  match hook.coverage with
  | .everyPoint => some (hook.name ++ ":" ++ point.text)
  | .commitAndCompletion =>
    if point = .beforeCommit ∨ point = .afterCompletion then
      some (hook.name ++ ":" ++ point.text)
    else none
  | .nothing => none
  | .dispatch => some (hook.name ++ ":on:" ++ point.text)

/-- The script that runs when a hook is called at a point. -/
def reaction (hook : Hook) (point : Point) : List Action :=
  match hook.coverage with
  | .everyPoint => hook.script point
  | _ => []

end Hook

mutual

/-- What an action answers. -/
inductive Reply
  | done
  | registered (result : Except Error Unit)
  | truth (value : Bool)
  | count (value : Nat)
  /-- What a body saw. -/
  | steps (steps : List Observation)
  /-- What each of several bodies saw. -/
  | branches (branches : List (List Observation))
  /-- The body failed. -/
  | failed
  /-- The body was dropped before its end. -/
  | dropped

/-- What is seen behind an action: its answer, the number of calls of hooks so far, whether there is
a scope, and its number of hooks. -/
inductive Observation
  | mk (reply : Reply) (calls : Nat) (inScope : Bool) (hooks : Nat)

end

mutual

/-- How often an action can wait. -/
def Action.pauses : Action → Nat
  | .yield => 1
  | .scope body => pausesOf body
  | _ => 0

/-- How often a script can wait. -/
def pausesOf : List Action → Nat
  | [] => 0
  | action :: rest => action.pauses + pausesOf rest

end

end GlobalTransaction.Lifecycle
