import GlobalTransaction.Proofs.Lifecycle.Turns

/-!
# What scripts do in their scope

An action that is performed does something with the list of the scope that it is performed in, and
gets an answer for it. The rules here say which deeds these are, for each action and each way in
which a script can come out of it. They know no world: a registration is the deed of its hook, with
the result that it is answered; a block does nothing in the list around it, and with its own list it
does what its body does, from the beginning. What is found in a list is left open by the rules, and
is as it should be since the deeds fit the list.

## Main definitions

* `Lifecycle.Does`, `Lifecycle.Runs` — what an action or a script does, up to some stage
* `Lifecycle.RunsApart` — the same of a script that has a list of its own
* `Lifecycle.CallsEach` — the same of a round of calls
* `Action.isLimited` — an action may go beyond a limit

## Main results

* `performs_work`, `performs_course` — actions and scripts do what the rules say
* `Caller.conducts_call` — so do the calls of hooks
-/

set_option autoImplicit false

namespace GlobalTransaction.Lifecycle

/-! ### Rules -/

/-- The hook of a supply, if the hooks made so far are known. -/
def Supply.hook? (named : Table String Hook) : Supply → Option Hook
  | nothing => none
  | known name => named.lookup name
  | fresh hook => some hook

mutual

/-- The deeds of an action in the scope in which it is performed, or outside, up to some stage. -/
inductive Does : Bool → Action → List Deed → Stage Reply → Prop
  | register (inScope : Bool) (supply : Supply) (named : Table String Hook)
      (result : Except Error Unit) :
      Does inScope (.register supply) [.registered (supply.hook? named) result]
        (.ended (.registered result))
  | clear (inScope : Bool) : Does inScope .clear [.cleared] (.ended .done)
  | hooks (inScope : Bool) (hooks : List Hook) :
      Does inScope .hooks [.found hooks] (.ended (.count hooks.length))
  | inScope (inScope : Bool) : Does inScope .inScope [] (.ended (.truth inScope))
  | trigger {inScope : Bool} {point : Point} {hooks : List Hook} {deeds : List Deed}
      {stage : Stage Unit} (h : CallsEach inScope point hooks deeds stage) :
      Does inScope (.trigger point) (.found hooks :: deeds) (stage.map fun _ => .done)
  | fire {inScope : Bool} {point : Point} {hooks : List Hook} {deeds : List Deed}
      {stage : Stage Unit} (h : CallsEach inScope point hooks deeds stage) :
      Does inScope (.fire point) (.found hooks :: deeds)
        (stage.map fun _ => .count hooks.length)
  | waits (inScope : Bool) : Does inScope .yield [] .waiting
  | goesOn (inScope : Bool) : Does inScope .yield [] (.ended .done)
  | fail (inScope : Bool) : Does inScope .fail [] .failed
  -- blocks do nothing around themselves
  | sync {inScope : Bool} {body : List Action} {stage : Stage (List Observation)}
      (h : RunsApart true body stage) (hover : stage.isOver = true) :
      Does inScope (.sync body) [] (stage.map .steps)
  | scope {inScope : Bool} {body : List Action} {stage : Stage (List Observation)}
      (h : RunsApart true body stage) : Does inScope (.scope body) [] (stage.map .steps)
  | cancel {inScope : Bool} {body : List Action} {turns : Nat} {stage : Stage (List Observation)}
      (h : RunsApart true body stage) (hover : stage.isOver = true) :
      Does inScope (.cancel body turns) [] (stage.map .steps)
  | dropped {inScope : Bool} {body : List Action} {turns : Nat} (h : RunsApart true body .waiting) :
      Does inScope (.cancel body turns) [] (.ended .dropped)
  | thread {inScope : Bool} {body : List Action} {stage : Stage (List Observation)}
      (h : RunsApart false body stage) (hover : stage.isOver = true) :
      Does inScope (.thread body) [] (stage.map .steps)
  -- what is rescued is done in the same scope
  | rescue {inScope : Bool} {body : List Action} {deeds : List Deed} {steps : List Observation}
      (h : Runs inScope body deeds (.ended steps)) :
      Does inScope (.rescue body) deeds (.ended (.steps steps))
  | rescued {inScope : Bool} {body : List Action} {deeds : List Deed}
      (h : Runs inScope body deeds .failed) : Does inScope (.rescue body) deeds (.ended .failed)
  | join {inScope : Bool} {bodies : List (List Action)} {schedule : Schedule Nat Deed}
      {stages : List (Stage (List Observation))} {stage : Stage (List (List Observation))}
      (hlength : stages.length = bodies.length) (hlt : ∀ turn ∈ schedule, turn.1 < bodies.length)
      (h : ∀ i body reached, bodies[i]? = some body → stages[i]? = some reached →
        Runs inScope body (schedule.commandsOf i) reached)
      (hall : Stage.All stages stage) :
      Does inScope (.join bodies false) schedule.commands (stage.map .branches)
  | joinApart {inScope : Bool} {bodies : List (List Action)}
      {stages : List (Stage (List Observation))} {stage : Stage (List (List Observation))}
      (hlength : stages.length = bodies.length)
      (h : ∀ (i : Nat) (body : List Action) (reached : Stage (List Observation)),
        bodies[i]? = some body → stages[i]? = some reached → RunsApart true body reached)
      (hall : Stage.All stages stage) :
      Does inScope (.join bodies true) [] (stage.map .branches)

/-- The deeds of a script in the scope in which it runs, or outside, up to some stage. -/
inductive Runs : Bool → List Action → List Deed → Stage (List Observation) → Prop
  /-- It has not had its first turn yet. -/
  | pending (inScope : Bool) (script : List Action) : Runs inScope script [] .waiting
  | nil (inScope : Bool) : Runs inScope [] [] (.ended [])
  | cons {inScope : Bool} {action : Action} {rest : List Action} {deeds more : List Deed}
      {reply : Reply} {stage : Stage (List Observation)} (calls hooks : Nat)
      (h : Does inScope action deeds (.ended reply)) (hrest : Runs inScope rest more stage) :
      Runs inScope (action :: rest) (deeds ++ more)
        (stage.map (.mk reply calls inScope hooks :: ·))
  | failed {inScope : Bool} {action : Action} {rest : List Action} {deeds : List Deed}
      (h : Does inScope action deeds .failed) : Runs inScope (action :: rest) deeds .failed
  | waits {inScope : Bool} {action : Action} {rest : List Action} {deeds : List Deed}
      (h : Does inScope action deeds .waiting) : Runs inScope (action :: rest) deeds .waiting

/-- A script has got to some stage with a list that only it has, in a scope of its own or outside
every scope. From the beginning on, it has found the hooks that were standing. -/
inductive RunsApart : Bool → List Action → Stage (List Observation) → Prop
  | intro {inScope : Bool} {script : List Action} {deeds : List Deed}
      {stage : Stage (List Observation)} (h : Runs inScope script deeds stage)
      (hconsistent : Consistent inScope deeds) : RunsApart inScope script stage

/-- The deeds of a round of calls: the script of each hook is run in the same scope, one after the
other. -/
inductive CallsEach : Bool → Point → List Hook → List Deed → Stage Unit → Prop
  | nil (inScope : Bool) (point : Point) : CallsEach inScope point [] [] (.ended ())
  | cons {inScope : Bool} {point : Point} {hook : Hook} {hooks : List Hook}
      {deeds more : List Deed} {steps : List Observation} {stage : Stage Unit}
      (h : Runs inScope (hook.reaction point) deeds (.ended steps))
      (hrest : CallsEach inScope point hooks more stage) :
      CallsEach inScope point (hook :: hooks) (.called hook point :: (deeds ++ more)) stage
  | failed {inScope : Bool} {point : Point} {hook : Hook} {hooks : List Hook} {deeds : List Deed}
      (h : Runs inScope (hook.reaction point) deeds .failed) :
      CallsEach inScope point (hook :: hooks) (.called hook point :: deeds) .failed

end

mutual

/-- The action may go beyond a limit: it has hooks called, or bodies take turns. -/
def Action.isLimited : Action → Bool
  | .trigger _ | .fire _ | .join _ _ => true
  | .sync body | .scope body | .rescue body | .thread body | .cancel body _ => anyLimited body
  | .register _ | .clear | .hooks | .inScope | .yield | .fail => false

/-- Some action of a script may go beyond a limit. -/
def anyLimited : List Action → Bool
  | [] => false
  | action :: rest => action.isLimited || anyLimited rest

end

/-! ### Single actions -/

namespace World

theorem supplied_eq (w : World) (supply : Supply) :
    (w.supplied supply).1.scope = w.scope ∧ (w.supplied supply).2 = supply.hook? w.named := by
  cases supply <;> exact ⟨rfl, rfl⟩

/-- A registration is the deed of its hook, with the result that it is answered. -/
theorem becomes_register (w : World) (supply : Supply) :
    w.scope.Becomes [.registered (supply.hook? w.named) (w.register supply).2]
      (w.register supply).1.scope := by
  obtain ⟨hscope, hhook⟩ := w.supplied_eq supply
  rw [← hscope, ← hhook]
  exact Scope.becomes_register _ _

theorem becomes_marked (w : World) (mark : Option String) :
    w.scope.Becomes [] (w.marked mark).scope := by
  cases mark <;> exact .refl w.scope

end World

variable {call : Caller} {inScope : Bool} {point : Point}

/-- The calls of hooks run their scripts to the end, in the scope in which they are made. -/
def Caller.Conducts (call : Caller) : Prop :=
  ∀ inScope hook point, (call hook point).Performs True inScope fun deeds stage =>
    ∃ reached : Stage (List Observation), reached.isOver = true ∧
      stage = reached.map (fun _ => ()) ∧ Runs inScope (hook.reaction point) deeds reached

theorem performs_callEach (hcall : call.Conducts) {hooks : List Hook}
    (hhooks : hooks ≠ [] → inScope = true) :
    (callEach call point hooks).Performs True inScope (CallsEach inScope point hooks) := by
  induction hooks with
  | nil => exact Work.performs_answer (.nil inScope point)
  | cons hook hooks ih =>
    have hin : inScope = true := hhooks (List.cons_ne_nil _ _)
    have hvisit : ((call hook point).andThen fun _ => callEach call point hooks).Performs True
        inScope fun more =>
          CallsEach inScope point (hook :: hooks) (.called hook point :: more) := by
      refine (hcall inScope hook point).andThen ?_ ?_ ?_
      · rintro deeds ⟨⟩ ⟨reached, -, hstage, hruns⟩
        cases reached with
        | ended steps => exact (ih fun _ => hin).mono fun _ _ hmore => .cons hruns hmore
        | failed | waiting => exact nomatch hstage
      · rintro deeds ⟨reached, -, hstage, hruns⟩
        cases reached with
        | failed => exact .failed hruns
        | ended | waiting => exact nomatch hstage
      -- a call does not wait
      · rintro deeds ⟨reached, hover, hstage, -⟩
        cases reached with
        | waiting => exact nomatch hover
        | ended | failed => exact nomatch hstage
    intro w hw
    exact .behind (w.note (.called hook point)) (Scope.becomes_called (hw.trans hin) hook point)
      (hvisit _ hw)

/-- A round goes over the hooks that were in the list when it began. -/
theorem performs_callEach_hooks (hcall : call.Conducts) (point : Point) {w : World}
    (hw : w.scope.isActive = inScope) :
    (callEach call point w.scope.hooks).Performs True inScope
      (CallsEach inScope point w.scope.hooks) :=
  performs_callEach hcall fun h => hw.symm.trans (Scope.isActive_of_hooks h)

theorem performs_triggerHooks (hcall : call.Conducts) (point : Point) :
    (triggerHooks call point).Performs True inScope fun deeds stage =>
      ∃ hooks more, deeds = .found hooks :: more ∧ CallsEach inScope point hooks more stage := by
  intro w hw
  have hround :=
    performs_callEach_hooks hcall point hw (w.readHooks.report [.logged .hooksTriggered]) hw
  refine .behind (w.readHooks.report [.logged .hooksTriggered]) (Scope.becomes_found w.scope) ?_
  exact hround.mono id fun more _ hmore => ⟨w.scope.hooks, more, rfl, hmore⟩

theorem performs_fireHooks (hcall : call.Conducts) (point : Point) :
    (fireHooks call point).Performs True inScope fun deeds stage =>
      ∃ hooks more reached, deeds = .found hooks :: more ∧
        CallsEach inScope point hooks more reached ∧ stage = reached.map fun _ => hooks.length := by
  intro w hw
  have hcount : ((callEach call point w.scope.hooks).map fun _ => w.scope.hooks.length).Performs
      True inScope fun more stage => ∃ reached, CallsEach inScope point w.scope.hooks more reached ∧
        stage = reached.map fun _ => w.scope.hooks.length :=
    (performs_callEach_hooks hcall point hw).map fun _ reached hmore => ⟨reached, hmore, rfl⟩
  refine .behind w.readHooks (Scope.becomes_found w.scope) ((hcount w.readHooks hw).mono id ?_)
  rintro more stage ⟨reached, hmore, hstage⟩
  exact ⟨w.scope.hooks, more, reached, rfl, hmore, hstage⟩

/-! ### Scripts -/

/-- A body that runs apart, in a scope of its own or outside every scope. -/
theorem performs_apart {mayOverrun : Prop} {body : List Action} {inner : Scope Hook}
    (hempty : inner.hooks = []) {work : Work (List Observation)}
    (h : work.Performs mayOverrun inner.isActive (Runs inner.isActive body)) :
    (work.within inner).Performs mayOverrun inScope fun deeds stage =>
      deeds = [] ∧ RunsApart inner.isActive body stage := by
  refine (h.within hempty).mono ?_
  rintro deeds stage ⟨rfl, done, hconsistent, hruns⟩
  exact ⟨rfl, .intro hruns hconsistent⟩

theorem RunsApart.pending (inScope : Bool) (script : List Action) :
    RunsApart inScope script .waiting :=
  .intro (.pending inScope script) (consistent_nil inScope)

theorem length_courses (call : Caller) (bodies : List (List Action)) :
    (courses call bodies).length = bodies.length := by
  induction bodies with
  | nil => rfl
  | cons body bodies ih => exact congrArg (· + 1) ih

/-- Bodies that take turns, each of them doing deeds as they should be for it. -/
theorem performs_bodies (spec : List Action → List Deed → Stage (List Observation) → Prop)
    (pauses : Nat) {works : List (Work (List Observation))} {bodies : List (List Action)}
    (hlength : works.length = bodies.length) (hpending : ∀ body, spec body [] .waiting)
    (h : ∀ (i : Nat) (work : Work (List Observation)), works[i]? = some work →
      ∃ body, bodies[i]? = some body ∧ work.Performs True inScope (spec body)) :
    (Work.inTurns pauses works).Performs True inScope
      (Joint bodies.length fun i deeds stage => ∃ body, bodies[i]? = some body ∧
        spec body deeds stage) := by
  rw [← hlength]
  refine Work.performs_inTurns pauses (fun i work hwork => ?_) fun i work hwork => ?_
  · obtain ⟨body, hbody, -⟩ := h i work hwork
    exact ⟨body, hbody, hpending body⟩
  · obtain ⟨body, hbody, hwork⟩ := h i work hwork
    exact hwork.mono fun deeds stage hspec => ⟨body, hbody, hspec⟩

mutual

theorem performs_work (hcall : call.Conducts) : ∀ (action : Action) (inScope : Bool),
    (action.work call).Performs (action.isLimited = true) inScope (Does inScope action)
  | .register supply, inScope => fun w _ =>
    .done (w.becomes_register supply) (.register inScope supply w.named _)
  | .trigger point, inScope => by
    refine ((performs_triggerHooks hcall point).weaken (fun _ => rfl)).map ?_
    rintro deeds stage ⟨hooks, more, rfl, hmore⟩
    exact .trigger hmore
  | .clear, inScope => fun w _ => .done (Scope.becomes_clear w.scope) (.clear inScope)
  | .hooks, inScope => fun w _ => .done (Scope.becomes_found w.scope) (.hooks inScope _)
  | .inScope, inScope => by
    rintro w rfl
    exact .done (.refl w.scope) (.inScope _)
  | .fire point, inScope => by
    refine ((performs_fireHooks hcall point).weaken (fun _ => rfl)).map ?_
    rintro deeds stage ⟨hooks, more, reached, rfl, hmore, rfl⟩
    cases reached <;> exact .fire hmore
  | .yield, inScope => fun w _ =>
    .paused (.refl w.scope) (.waits inScope) fun later _ =>
      .done (.refl later.scope) (.goesOn inScope)
  | .fail, inScope => fun w _ => .failed (.refl w.scope) (.fail inScope)
  | .sync body, _ => by
    rw [Action.work, Work.toEnd_within]
    refine (performs_apart Scope.hooks_fresh (performs_course hcall body true)).toEnd.map ?_
    rintro deeds stage ⟨hover, rfl, hbody⟩
    exact .sync hbody hover
  | .scope body, _ => by
    refine (performs_apart Scope.hooks_fresh (performs_course hcall body true)).map ?_
    rintro deeds stage ⟨rfl, hbody⟩
    exact .scope hbody
  | .rescue body, inScope => by
    refine (performs_course hcall body inScope).rescued.map ?_
    rintro deeds stage ⟨reached, hover, rfl, hbody⟩
    cases reached with
    | ended steps => exact .rescue hbody
    | failed => exact .rescued hbody
    | waiting => exact nomatch hover
  | .thread body, _ => by
    rw [Action.work, Work.toEnd_within]
    refine (performs_apart Scope.hooks_none (performs_course hcall body false)).toEnd.map ?_
    rintro deeds stage ⟨hover, rfl, hbody⟩
    exact .thread hbody hover
  | .join bodies ownScopes, inScope => by
    -- the bodies share the list of the script, or each has one that only it comes back to
    cases ownScopes with
    | false =>
      refine ((performs_bodies (Runs inScope) _ (length_courses call bodies) (.pending inScope)
        (performs_courses hcall bodies inScope)).weaken (fun _ => rfl)).map ?_
      rintro deeds stage ⟨schedule, stages, rfl, hlength, hturns, hall⟩
      refine .join hlength (hlength ▸ hturns.lt) (fun i body reached hbody hreached => ?_) hall
      obtain ⟨body', hbody', hruns⟩ := hturns.holds i reached hreached
      obtain rfl := Option.some.inj (hbody.symm.trans hbody')
      exact hruns
    | true =>
      refine ((performs_bodies (fun body deeds stage => deeds = [] ∧ RunsApart true body stage) _
        ((List.length_map _).trans (length_courses call bodies))
        (fun body => ⟨rfl, .pending true body⟩) ?_).weaken (fun _ => rfl)).map ?_
      · intro i work hwork
        rw [List.getElem?_map] at hwork
        obtain ⟨alone, halone, rfl⟩ := Option.map_eq_some_iff.1 hwork
        obtain ⟨body, hbody, hruns⟩ := performs_courses hcall bodies true i alone halone
        exact ⟨body, hbody, performs_apart Scope.hooks_fresh hruns⟩
      · rintro deeds stage ⟨schedule, stages, rfl, hlength, hturns, hall⟩
        obtain rfl := hturns.eq_nil fun i deeds part ⟨_, _, hnil, _⟩ => hnil
        refine .joinApart hlength (fun i body reached hbody hreached => ?_) hall
        obtain ⟨body', hbody', -, happart⟩ := hturns.holds i reached hreached
        obtain rfl := Option.some.inj (hbody.symm.trans hbody')
        exact happart
  | .cancel body turns, _ => by
    refine ((performs_apart Scope.hooks_fresh (performs_course hcall body true)).limited
      ⟨rfl, .pending true body⟩ turns).map ?_
    rintro deeds stage ⟨reached, rfl, rfl, hbody⟩
    cases reached with
    | ended steps => exact .cancel hbody rfl
    | failed => exact .cancel hbody rfl
    | waiting => exact .dropped hbody

theorem performs_course (hcall : call.Conducts) : ∀ (script : List Action) (inScope : Bool),
    (course call script).Performs (anyLimited script = true) inScope (Runs inScope script)
  | [], inScope => Work.performs_answer (.nil inScope)
  | action :: rest, inScope => by
    have hfirst : action.isLimited = true → anyLimited (action :: rest) = true :=
      fun h => Bool.or_eq_true_iff.2 (.inl h)
    have hlast : anyLimited rest = true → anyLimited (action :: rest) = true :=
      fun h => Bool.or_eq_true_iff.2 (.inr h)
    have hwork := (performs_work hcall action inScope).weaken hfirst
    have hrest := (performs_course hcall rest inScope).weaken hlast
    refine hwork.andThen ?_ (fun deeds h => .failed h) (fun deeds h => .waits h)
    rintro deeds reply hdoes w rfl
    -- what is seen behind the action comes in front of what the rest sees
    exact hrest.map (fun _ _ => .cons w.calls.length w.scope.hooks.length hdoes) w rfl

theorem performs_courses (hcall : call.Conducts) :
    ∀ (bodies : List (List Action)) (inScope : Bool) (i : Nat) (work : Work (List Observation)),
      (courses call bodies)[i]? = some work →
        ∃ body, bodies[i]? = some body ∧ work.Performs True inScope (Runs inScope body)
  | [], _ => fun _ _ hwork => nomatch hwork
  | body :: bodies, inScope => by
    have hbody := (performs_course hcall body inScope).weaken (fun _ => trivial)
    rintro (_ | i) work hwork
    · obtain rfl := Option.some.inj hwork
      exact ⟨body, rfl, hbody⟩
    · exact performs_courses hcall bodies inScope i work hwork

end

/-- The script of a hook is run in the scope in which the hook is called. -/
theorem Caller.conducts_call (depth : Nat) : Caller.Conducts (Hook.call depth) := by
  -- the calls in the script of a hook go one less deep
  induction depth with
  | zero => exact fun _ _ _ _ _ => .overrun trivial
  | succ depth ih =>
    intro inScope hook point w hw
    have hscript :=
      ((performs_course ih (hook.reaction point) inScope).weaken fun _ => trivial).toEnd
    have hmarked := w.becomes_marked (hook.mark point)
    rw [Hook.call]
    refine .behind (w.marked (hook.mark point)) hmarked ?_
    refine hscript.map (fun deeds reached hreached => ?_) _ (hmarked.isActive_eq.trans hw)
    exact ⟨reached, hreached.1, rfl, hreached.2⟩

end GlobalTransaction.Lifecycle
