import GlobalTransaction.Lifecycle.Work

/-!
# The course of scripts

What a script does to the world, action by action, and what it gets to see. Calling a
hook leaves its mark and runs its script to the end, in whatever scope the call is
made. A round of calls goes over the hooks as they were when it began.

## Main definitions

* `World.register`, `World.clear`, `World.readHooks` — what is done with the innermost scope
* `Lifecycle.callEach` — a round of calls
* `Action.work`, `Lifecycle.course` — the work of an action and of a script
* `Hook.call` — the call of a hook
* `Lifecycle.run` — a whole script, outside every scope
-/

namespace GlobalTransaction.Lifecycle

namespace World

/-- The hook that is supplied to a registration. A new one is remembered under its name. -/
def supplied (w : World) : Supply → World × Option Hook
  | .nothing => (w, none)
  | .known name => (w, w.named.lookup name)
  | .fresh hook => ({ w with named := w.named.insert hook.name hook }, some hook)

/-- A registration in the innermost scope. -/
def register (w : World) (supply : Supply) : World × Except Error Unit :=
  let (w, hook) := w.supplied supply
  let o := w.scope.register hook
  ({ w.note (.registered hook o.answer) with scope := o.state }.report o.journal, o.answer)

/-- The innermost scope without hooks. -/
def clear (w : World) : World := { w.note .cleared with scope := w.scope.clear }

/-- The hooks of the innermost scope are read. -/
def readHooks (w : World) : World := w.note (.found w.scope.hooks)

/-- The mark of a call. -/
def marked (w : World) : Option String → World
  | none => w
  | some mark => { w with calls := w.calls ++ [mark] }

end World

/-- A hook is called at a point. -/
abbrev Caller := Hook → Point → Work Unit

/-- What is seen behind an action. -/
def observe (reply : Reply) : Work Observation := fun w =>
  .done w (.mk reply w.calls.length w.scope.isActive w.scope.hooks.length)

/-- A round of calls: each of some hooks, one after the other. -/
def callEach (call : Caller) (point : Point) : List Hook → Work Unit
  | [] => .answer ()
  | hook :: hooks => fun w =>
    (call hook point).andThen (fun _ => callEach call point hooks) (w.note (.called hook point))

/-- The hooks of the innermost scope are called. -/
def triggerHooks (call : Caller) (point : Point) : Work Unit := fun w =>
  callEach call point w.scope.hooks (w.readHooks.report [.logged .hooksTriggered])

/-- The hooks of the innermost scope are taken, and each is called; the answer is their number. -/
def fireHooks (call : Caller) (point : Point) : Work Nat := fun w =>
  (callEach call point w.scope.hooks).map (fun _ => w.scope.hooks.length) w.readHooks

mutual

/-- The work of an action. -/
def Action.work (call : Caller) : Action → Work Reply
  | .register supply => fun w =>
    let (w, result) := w.register supply
    .done w (.registered result)
  | .trigger point => (triggerHooks call point).map fun _ => .done
  | .clear => fun w => .done w.clear .done
  | .hooks => fun w => .done w.readHooks (.count w.scope.hooks.length)
  | .inScope => fun w => .done w (.truth w.scope.isActive)
  | .fire point => (fireHooks call point).map .count
  | .yield => fun w => .paused w fun w => .done w .done
  | .fail => fun w => .failed w
  | .sync body => ((course call body).toEnd.within .fresh).map .steps
  | .scope body => ((course call body).within .fresh).map .steps
  | .rescue body => (course call body).rescued.map fun steps => steps.elim .failed .steps
  | .thread body => ((course call body).toEnd.within none).map .steps
  | .join bodies ownScopes =>
    let works := courses call bodies
    -- with a scope of its own, a body finds the same scope again at its next turn
    let works := if ownScopes then works.map (Work.within .fresh) else works
    (Work.inTurns ((bodies.map pausesOf).foldr max 0) works).map .branches
  | .cancel body turns =>
    (((course call body).within .fresh).limited turns).map fun steps => steps.elim .dropped .steps

/-- The work of a script: its actions one after the other, with what is seen behind each. -/
def course (call : Caller) : List Action → Work (List Observation)
  | [] => .answer []
  | action :: rest =>
    (action.work call).andThen fun reply =>
      (observe reply).andThen fun here => (course call rest).map (here :: ·)

/-- The work of each of several scripts. -/
def courses (call : Caller) : List (List Action) → List (Work (List Observation))
  | [] => []
  | body :: bodies => course call body :: courses call bodies

end

/-- The call of a hook at a point: it leaves its mark and runs its script to the end. Calls within
calls go so deep at most. -/
def Hook.call : (depth : Nat) → Caller
  | 0, _, _ => fun _ => .overrun
  | depth + 1, hook, point => fun w =>
    ((course (Hook.call depth) (hook.reaction point)).toEnd.map fun _ => ())
      (w.marked (hook.mark point))

/-- How deep calls within calls go. -/
def callDepth : Nat := 4096

/-- A whole script, from the beginning to the end. -/
def run (script : List Action) : Progress (List Observation) :=
  (course (Hook.call callDepth) script).toEnd .start

end GlobalTransaction.Lifecycle
