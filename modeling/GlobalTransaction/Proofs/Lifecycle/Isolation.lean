import GlobalTransaction.Proofs.Lifecycle.Conduct

/-!
# Isolation of scopes

What is done with the list of a scope depends on nothing but what was done in the same scope before.
A scope begins with an empty list, at every moment its list has the hooks that were registered in it
with success since it was last cleared, and however it is left, the list around it is as it was.

## Main definitions

* `Action.block?` — the body of an action that runs it in a scope of its own
* `Lifecycle.Isolated` — isolation of scopes, for a way to call hooks

## Main results

* `work_of_block?` — a block is its body in a scope that has just been opened
* `triggerHooks_outside` — outside every scope no hook is called
* `scopes_isolated` — scopes are isolated, however deep calls within calls go
-/

set_option autoImplicit false

namespace GlobalTransaction.Lifecycle

/-- The body of an action that runs it in a scope of its own, and how it runs: to its end, as far as
it gets between waits, or until it is dropped. -/
def Action.block? : Action → Option (List Action × (Work (List Observation) → Work Reply))
  | .sync body => some (body, fun work => work.toEnd.map .steps)
  | .scope body => some (body, fun work => work.map .steps)
  | .cancel body turns => some (body, fun work =>
      (work.limited turns).map fun steps => steps.elim .dropped .steps)
  | _ => none

theorem work_of_block? (call : Caller) {action : Action} {body : List Action}
    {manner : Work (List Observation) → Work Reply} (h : action.block? = some (body, manner)) :
    action.work call = (manner (course call body)).within .fresh := by
  cases action with
  | sync body' =>
    obtain ⟨rfl, rfl⟩ := Prod.mk.inj (Option.some.inj h)
    exact Work.map_within _ _ _
  | scope body' =>
    obtain ⟨rfl, rfl⟩ := Prod.mk.inj (Option.some.inj h)
    exact Work.map_within _ _ _
  | cancel body' turns =>
    obtain ⟨rfl, rfl⟩ := Prod.mk.inj (Option.some.inj h)
    rw [Action.work, Work.limited_within]
    exact Work.map_within _ _ _
  | _ => cases h

/-- A body with a list of its own, from its beginning on. -/
theorem alone_course {call : Caller} (hcall : call.Conducts) (body : List Action) (w : World) :
    (course call body (w.goTo (.opening .fresh))).Alone (anyLimited body = true)
      (fun deeds stage v => Runs true body deeds stage ∧ Consistent true deeds ∧
        v.scope.isActive = true ∧ v.scope.hooks = standing deeds) [] := by
  have hperforms := performs_course hcall body true (w.goTo (.opening .fresh)) rfl
  refine (hperforms.alone (.refl .fresh) fun _ _ => id).mono ?_
  rintro deeds stage v ⟨hbecomes, hruns⟩
  have hempty : Scope.hooks (.fresh : Scope Hook) = [] := Scope.hooks_fresh
  exact ⟨hruns, hbecomes.consistent hempty, hbecomes.isActive_eq,
    hbecomes.hooks_eq_standing hempty⟩

theorem World.register_outside {w : World} (h : w.scope = none) (supply : Supply) :
    (w.register supply).2 = .error .noActiveScope ∧ (w.register supply).1.scope = none := by
  cases supply <;> simp [World.register, World.supplied, Scope.register, World.report, h]

/-- Outside every scope, triggering finds no hook to call. -/
theorem triggerHooks_outside (call : Caller) (point : Point) {w : World} (h : w.scope = none) :
    triggerHooks call point w = .done (w.readHooks.report [.logged .hooksTriggered]) () := by
  rw [triggerHooks, h, Scope.hooks_none]
  rfl

/-- Scopes are isolated, if hooks are called in a given way. -/
structure Isolated (call : Caller) : Prop where
  /-- Wherever a registration is performed, it is answered, and makes of the list what a
  registration of the supplied hook with just this answer makes of it. -/
  registering : ∀ (w : World) supply, ∃ (w' : World) (result : Except Error Unit),
    (Action.register supply).work call w = .done w' (.registered result) ∧
    w.scope.Becomes [.registered (supply.hook? w.named) result] w'.scope
  /-- Wherever the list is cleared, no hook is left in it. -/
  clearing : ∀ w : World, ∃ w' : World, Action.clear.work call w = .done w' .done ∧
    w.scope.Becomes [.cleared] w'.scope ∧ w'.scope.hooks = []
  /-- Wherever the hooks are read, they are those of the list, and all of them. -/
  reading : ∀ w : World, ∃ w' : World,
    Action.hooks.work call w = .done w' (.count w.scope.hooks.length) ∧
    w.scope.Becomes [.found w.scope.hooks] w'.scope
  /-- Wherever a script ends, fails or waits, it has done the deeds of the actions that it has
  performed by then, with the answers that it has got, and they have made the list. The deeds of a
  block that has been entered are consistent from its beginning on, in blocks in blocks as well, and
  none of them is among the deeds around it. -/
  runs : ∀ script (w : World), (course call script w).Performs (anyLimited script = true) w
    (Runs w.scope.isActive script)
  /-- A block is its body, begun in a scope that has just been opened and has no hooks, and left for
  the place around. -/
  block : ∀ action body manner, Action.block? action = some (body, manner) → ∀ w : World,
    (w.goTo (.opening .fresh)).scope.hooks = [] ∧
    action.work call w = (manner (course call body) (w.goTo (.opening .fresh))).leave w.toPlace
  /-- Wherever the body of a block ends, fails or waits, its list has the hooks that were
  registered in it with success since it was last cleared, in that order, and so it had whenever it
  was read. -/
  inside : ∀ body (w : World),
    (course call body (w.goTo (.opening .fresh))).Alone (anyLimited body = true)
      (fun deeds stage v => Runs true body deeds stage ∧ Consistent true deeds ∧
        v.scope.isActive = true ∧ v.scope.hooks = standing deeds) []
  /-- When a block ends, fails, waits or is dropped, the list around it is the one with which it was
  entered, or taken up again. -/
  restores : ∀ action : Action, action.block?.isSome = true →
    ∀ w, (action.work call w).Restores w.toPlace
  /-- A script begins outside every scope. There no hook is found, every registration is refused,
  and neither clearing nor triggering calls a hook. -/
  outside : World.start.scope = none ∧ ∀ (w : World) supply point, w.scope = none →
    ∃ registered cleared triggered read : World,
      (Action.register supply).work call w =
        .done registered (.registered (.error .noActiveScope)) ∧
      registered.scope = none ∧
      Action.clear.work call w = .done cleared .done ∧ cleared.scope = none ∧
      cleared.calls = w.calls ∧
      (Action.trigger point).work call w = .done triggered .done ∧ triggered.scope = none ∧
      triggered.calls = w.calls ∧
      Action.hooks.work call w = .done read (.count 0) ∧ w.scope.hooks = []

/-- Scopes are isolated for every script with blocks in blocks, however they are left, and for hooks
that call hooks to any depth. -/
theorem scopes_isolated (depth : Nat) : Isolated (Hook.call depth) where
  registering w supply := ⟨_, _, rfl, w.becomes_register supply⟩
  clearing w := ⟨_, rfl, Scope.becomes_clear w.scope, Scope.hooks_clear w.scope⟩
  reading w := ⟨_, rfl, Scope.becomes_found w.scope⟩
  runs script w := performs_course (Caller.conducts_call depth) script _ w rfl
  block _ _ _ hblock w := ⟨Scope.hooks_fresh, congrFun (work_of_block? _ hblock) w⟩
  inside := alone_course (Caller.conducts_call depth)
  restores action hblock w := by
    obtain ⟨⟨body, manner⟩, hbody⟩ := Option.isSome_iff_exists.1 hblock
    rw [work_of_block? _ hbody]
    exact Progress.restores_leave _ _
  outside := by
    refine ⟨rfl, fun w supply point hscope => ?_⟩
    obtain ⟨hresult, hregistered⟩ := World.register_outside hscope supply
    have hhooks : w.scope.hooks = [] := by rw [hscope, Scope.hooks_none]
    have hregister : (Action.register supply).work (Hook.call depth) w
        = .done (w.register supply).1 (.registered (.error .noActiveScope)) := by
      rw [← hresult, Action.work]
    have htrigger : (Action.trigger point).work (Hook.call depth) w
        = .done (w.readHooks.report [.logged .hooksTriggered]) .done := by
      rw [Action.work, Work.map, Work.andThen, triggerHooks_outside _ _ hscope]
      rfl
    have hread : Action.hooks.work (Hook.call depth) w = .done w.readHooks (.count 0) := by
      simp only [Action.work, hhooks, List.length_nil]
    have hcleared : w.clear.scope = none := congrArg Scope.clear hscope
    exact ⟨_, _, _, _, hregister, hregistered, rfl, hcleared, rfl, htrigger, hscope, rfl, hread,
      hhooks⟩

/-- A hook that was registered in a block that has failed is not in the list around it. -/
example (a b : Hook) :
    ∃ w, course (Hook.call 0)
        [.register (.fresh a), .rescue [.sync [.register (.fresh b), .fail]], .hooks]
        (World.start.goTo (.opening .fresh)) =
      .done w
        [.mk (.registered (.ok ())) 0 true 1, .mk .failed 0 true 1, .mk (.count 1) 0 true 1] :=
  ⟨_, rfl⟩

end GlobalTransaction.Lifecycle
