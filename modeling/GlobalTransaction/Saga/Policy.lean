import GlobalTransaction.Saga.Context

/-!
# Which steps to undo

A policy picks out of the history of a run the steps that compensation has to undo.
It keeps their order.

## Main definitions

* `Saga.Policy` — the choice of steps
* `Policy.needed` — the usual one: every step that must be undone
* `Policy.neededWhere`, `Policy.everything` — a narrower and the widest one

## Main results

* `Policy.mem_needed` — what the usual policy picks
-/

namespace GlobalTransaction.Saga

/-- The choice of the steps to undo, from the context and the history of a run. -/
abbrev Policy := Context → List Step → List Step

namespace Policy

/-- Every step that must be undone. -/
def needed : Policy := fun _ history => history.filter Step.needsCompensation

/-- Every step that must be undone and has a certain property. -/
def neededWhere (p : Step → Bool) : Policy := fun c history => (needed c history).filter p

/-- The whole history. -/
def everything : Policy := fun _ history => history

theorem mem_needed {c : Context} {history : List Step} {s : Step} :
    s ∈ needed c history ↔ s ∈ history ∧ s.needsCompensation :=
  List.mem_filter

end Policy

end GlobalTransaction.Saga
