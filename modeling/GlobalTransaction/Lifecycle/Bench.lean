import GlobalTransaction.Lifecycle.Course

/-!
# Registries side by side

Registries that are passed along by hand, without scopes: they have numbers, can be
copied, and hooks can be taken out of them and called later.

## Main definitions

* `Lifecycle.Bench` — registries and taken hooks, both numbered from zero
* `Bench.Command`, `Bench.step` — what can be done with them
-/

namespace GlobalTransaction.Lifecycle

/-- Registries and lists of hooks that were taken out of them. -/
structure Bench where
  registries : List (Registry Hook)
  taken : List (List Hook)

namespace Bench

/-- One registry without hooks. -/
def start : Bench := ⟨[.empty], []⟩

/-- The registry of a number; one that does not exist has no hooks. -/
def registry (b : Bench) (number : Nat) : Registry Hook := b.registries[number]?.getD .empty

/-- The hooks of a number that were taken out; there are none if that did not happen. -/
def takenHooks (b : Bench) (number : Nat) : List Hook := b.taken[number]?.getD []

/-- The bench with a changed registry. -/
def withRegistry (b : Bench) (number : Nat) (r : Registry Hook) : Bench :=
  { b with registries := b.registries.set number r }

/-- What can be done with registries. -/
inductive Command
  /-- A registry without hooks is added. -/
  | add
  /-- A copy of a registry is added. -/
  | copy (number : Nat)
  | register (number : Nat) (supply : Supply)
  | trigger (number : Nat) (point : Point)
  | clear (number : Nat)
  /-- The hooks of a registry are taken out; the registry keeps them. -/
  | take (number : Nat)
  /-- Hooks that were taken out are called. -/
  | fire (number : Nat) (point : Point)

/-- The work of one command. -/
def step (call : Caller) (b : Bench) : Command → Work (Bench × Reply)
  | .add => .answer ({ b with registries := b.registries ++ [.empty] }, .done)
  | .copy number => .answer ({ b with registries := b.registries ++ [b.registry number] }, .done)
  | .register number supply => fun w =>
    let (w, hook) := w.supplied supply
    let o := (b.registry number).register hook
    .done (w.report o.journal) (b.withRegistry number o.state, .registered o.answer)
  | .trigger number point =>
    (callEach call point (b.registry number).hooks).map fun _ => (b, .done)
  | .clear number => .answer (b.withRegistry number (b.registry number).clear, .done)
  | .take number =>
    let hooks := (b.registry number).hooks
    .answer ({ b with taken := b.taken ++ [hooks] }, .count hooks.length)
  | .fire number point =>
    let hooks := b.takenHooks number
    (callEach call point hooks).map fun _ => (b, .count hooks.length)

end Bench

end GlobalTransaction.Lifecycle
