import GlobalTransaction.Lifecycle.Course
import Mathlib.Data.List.DropRight

/-!
# Deeds and the list that they make

A list of hooks is what was done with it: a registration that succeeds puts its hook behind the
others, and clearing leaves none. So deeds make one list of another, and it can be said of each of
them what it has to be in view of the deeds before it.

## Main definitions

* `Lifecycle.standing` — the hooks that are to be in a list behind some deeds
* `Lifecycle.replay` — the same of a list that had hooks before
* `Deed.Fits`, `Lifecycle.Fit` — deeds come out as they have to, in view of the list
* `Lifecycle.Consistent` — the same of deeds since the beginning of the list
* `Scope.Becomes` — fitting deeds make one list of another

## Main results

* `standing_eq_replay` — a list that had no hooks before has the standing ones
* `Fit.consistent` — deeds that fit a list without hooks are consistent
* `Scope.becomes_register`, `Scope.becomes_clear` — what is done with a list becomes of it
-/

set_option autoImplicit false

namespace GlobalTransaction.Lifecycle

namespace Deed

/-- The hook that a deed has put into the list. -/
def hook? : Deed → Option Hook
  | registered hook (.ok ()) => hook
  | _ => none

/-- The deed has emptied the list. -/
def isClearing : Deed → Bool
  | cleared => true
  | _ => false

/-- The list behind a deed. -/
def appliedTo (hooks : List Hook) (deed : Deed) : List Hook :=
  if deed.isClearing then [] else hooks ++ deed.hook?.toList

end Deed

/-- The hooks that were registered with success since the list was last cleared, in that order. -/
def standing (deeds : List Deed) : List Hook :=
  (deeds.rtakeWhile fun deed => !deed.isClearing).filterMap Deed.hook?

theorem standing_append {deed : Deed} (h : deed.isClearing = false) (deeds : List Deed) :
    standing (deeds ++ [deed]) = standing deeds ++ deed.hook?.toList := by
  have htake := List.rtakeWhile_concat_pos (fun deed : Deed => !deed.isClearing) deeds deed
    (by simp [h])
  rw [standing, htake, List.filterMap_append, standing]
  cases hhook : deed.hook? <;> simp [hhook]

@[simp] theorem standing_append_cleared (deeds : List Deed) :
    standing (deeds ++ [.cleared]) = [] := by
  rw [standing, List.rtakeWhile_concat_neg _ _ _ (by simp [Deed.isClearing]), List.filterMap_nil]

/-- The list behind some deeds. -/
def replay (hooks : List Hook) (deeds : List Deed) : List Hook := deeds.foldl Deed.appliedTo hooks

theorem replay_append (hooks : List Hook) (deeds more : List Deed) :
    replay hooks (deeds ++ more) = replay (replay hooks deeds) more :=
  List.foldl_append

theorem standing_eq_replay (deeds : List Deed) : standing deeds = replay [] deeds := by
  induction deeds using List.reverseRecOn with
  | nil => rfl
  | append_singleton deeds deed ih =>
    rw [replay_append, ← ih, replay, List.foldl_cons, List.foldl_nil, Deed.appliedTo]
    cases deed with
    | cleared => exact standing_append_cleared deeds
    | registered | found | called => exact standing_append rfl deeds

/-! ### Deeds that come out as they have to -/

/-- What is seen of a deed is what it has to be, with these hooks in the list. Outside every scope
no hook is called. -/
def Deed.Fits (inScope : Bool) (hooks : List Hook) : Deed → Prop
  | registered none result => result = .error (if inScope then .missingHook else .noActiveScope)
  | registered (some _) result => result = if inScope then .ok () else .error .noActiveScope
  | cleared => True
  | found read => read = hooks
  | called _ _ => inScope = true

/-- Each deed fits the list as the deeds before it have left it. -/
def Fit (inScope : Bool) (hooks : List Hook) : List Deed → Prop
  | [] => True
  | deed :: deeds => deed.Fits inScope hooks ∧ Fit inScope (deed.appliedTo hooks) deeds

/-- Each deed fits the hooks that the deeds before it have left standing. -/
def Consistent (inScope : Bool) (deeds : List Deed) : Prop :=
  ∀ earlier deed later, deeds = earlier ++ deed :: later → deed.Fits inScope (standing earlier)

theorem consistent_nil (inScope : Bool) : Consistent inScope [] :=
  fun _ _ _ h => absurd h.symm (List.append_ne_nil_of_right_ne_nil _ (List.cons_ne_nil _ _))

theorem fit_append {inScope : Bool} {hooks : List Hook} {deeds more : List Deed} :
    Fit inScope hooks (deeds ++ more) ↔
      Fit inScope hooks deeds ∧ Fit inScope (replay hooks deeds) more := by
  induction deeds generalizing hooks with
  | nil => exact ⟨fun h => ⟨trivial, h⟩, And.right⟩
  | cons deed deeds ih =>
    rw [List.cons_append, Fit, Fit, ih, and_assoc, replay, replay, List.foldl_cons]

theorem Fit.consistent {inScope : Bool} {deeds : List Deed} (h : Fit inScope [] deeds) :
    Consistent inScope deeds := by
  rintro earlier deed later rfl
  rw [standing_eq_replay]
  exact (fit_append.1 h).2.1

/-! ### What becomes of a list -/

namespace Scope

/-- Some deeds, each of them fitting, make one list of another. -/
structure Becomes (s : Scope Hook) (deeds : List Deed) (s' : Scope Hook) : Prop where
  isActive_eq : s'.isActive = s.isActive
  hooks_eq : s'.hooks = replay s.hooks deeds
  fit : Fit s.isActive s.hooks deeds

variable {s s' s'' : Scope Hook} {deeds more : List Deed}

theorem Becomes.refl (s : Scope Hook) : s.Becomes [] s := ⟨rfl, rfl, trivial⟩

theorem Becomes.trans (h : s.Becomes deeds s') (hmore : s'.Becomes more s'') :
    s.Becomes (deeds ++ more) s'' := by
  refine ⟨hmore.isActive_eq.trans h.isActive_eq, ?_, fit_append.2 ⟨h.fit, ?_⟩⟩
  · rw [hmore.hooks_eq, h.hooks_eq, replay_append]
  · rw [← h.isActive_eq, ← h.hooks_eq]
    exact hmore.fit

/-- A scope that began without hooks has the standing ones. -/
theorem Becomes.hooks_eq_standing (h : s.Becomes deeds s') (hempty : s.hooks = []) :
    s'.hooks = standing deeds := by
  rw [h.hooks_eq, hempty, standing_eq_replay]

theorem Becomes.consistent (h : s.Becomes deeds s') (hempty : s.hooks = []) :
    Consistent s.isActive deeds := by
  have hfit := h.fit
  rw [hempty] at hfit
  exact hfit.consistent

/-- A registration makes of the list what its deed says, in a scope or outside, with a hook or
without one. -/
theorem hooks_register (s : Scope Hook) (hook : Option Hook) :
    (s.register hook).state.hooks =
      Deed.appliedTo s.hooks (.registered hook (s.register hook).answer) := by
  cases s with
  | none => rfl
  | some r =>
    cases hook with
    | none => exact (List.append_nil r.hooks).symm
    | some hook => rfl

theorem becomes_register (s : Scope Hook) (hook : Option Hook) :
    s.Becomes [.registered hook (s.register hook).answer] (s.register hook).state := by
  refine ⟨isActive_register s hook, hooks_register s hook, ?_, trivial⟩
  cases s <;> cases hook <;> rfl

theorem becomes_clear (s : Scope Hook) : s.Becomes [.cleared] s.clear :=
  ⟨isActive_clear s, hooks_clear s, trivial, trivial⟩

theorem becomes_found (s : Scope Hook) : s.Becomes [.found s.hooks] s :=
  ⟨rfl, (List.append_nil _).symm, rfl, trivial⟩

/-- Hooks are called in a scope only. -/
theorem becomes_called (h : s.isActive = true) (hook : Hook) (point : Point) :
    s.Becomes [.called hook point] s :=
  ⟨rfl, (List.append_nil _).symm, h, trivial⟩

/-- Outside every scope there is no hook. -/
theorem isActive_of_hooks (h : s.hooks ≠ []) : s.isActive = true := by
  cases s with
  | none => exact absurd hooks_none h
  | some r => rfl

end Scope

end GlobalTransaction.Lifecycle
