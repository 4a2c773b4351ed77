import GlobalTransaction.Proofs.Lifecycle.Deeds
import GlobalTransaction.Proofs.Lifecycle.Rules

/-!
# Rounds of calls

A hook may itself register hooks, clear the list, read it and have its hooks called, and so may the
hooks that are called then. None of this gets in the way of the round that is under way: what is
done follows the rules, and what the rules allow is done, if calls within calls may go deep enough.

## Main definitions

* `World.Leads` — what some deeds make of the list and of the marks of calls
* `Progress.Ends`, `Progress.Reaches` — work ends behind certain deeds
* `IsRound` — a round from its beginning to its end

## Main results

* `Caller.carriesOut_call` — a call of a hook carries out its script
* `Carries.reached`, `Visits.reached` — what the rules allow is done
* `rounds_undisturbed` — rounds are not disturbed by what is done in them
-/

set_option autoImplicit false

namespace GlobalTransaction.Lifecycle

/-! ### What deeds make of the world -/

/-- The mark that a deed leaves. -/
def Deed.mark? : Deed → Option String
  | called hook point => hook.mark point
  | registered _ _ | cleared | found _ => none

namespace World

/-- What plain scripts find in the world. -/
def stock (w : World) : Stock := ⟨w.scope, w.named⟩

/-- Some deeds lead from one world to another: they have been done there, with their marks, and have
made its list. -/
structure Leads (w : World) (deeds : List Deed) (w' : World) : Prop where
  deeds_eq : w'.deeds = w.deeds ++ deeds
  calls_eq : w'.calls = w.calls ++ deeds.filterMap Deed.mark?
  hooks_eq : w'.scope.hooks = replay w.scope.hooks deeds

variable {w w' w'' : World} {deeds more : List Deed}

theorem Leads.refl (w : World) : w.Leads [] w :=
  ⟨(List.append_nil _).symm, (List.append_nil _).symm, rfl⟩

theorem Leads.trans (h : w.Leads deeds w') (hmore : w'.Leads more w'') :
    w.Leads (deeds ++ more) w'' := by
  constructor
  · rw [hmore.deeds_eq, h.deeds_eq, List.append_assoc]
  · rw [hmore.calls_eq, h.calls_eq, List.append_assoc, List.filterMap_append]
  · rw [hmore.hooks_eq, h.hooks_eq, replay, replay, replay, List.foldl_append]

theorem Leads.report (h : w.Leads deeds w') (events : Journal) :
    w.Leads deeds (w'.report events) := ⟨h.deeds_eq, h.calls_eq, h.hooks_eq⟩

theorem leads_register (w : World) (supply : Supply) :
    (w.register supply).1.stock = (w.stock.register supply).1 ∧
      w.Leads [(w.stock.register supply).2] (w.register supply).1 := by
  cases supply <;>
    exact ⟨rfl, rfl, (List.append_nil _).symm, Scope.hooks_register w.scope _⟩

theorem leads_clear (w : World) : w.Leads [.cleared] w.clear :=
  ⟨rfl, (List.append_nil _).symm, Scope.hooks_clear w.scope⟩

theorem leads_readHooks (w : World) : w.Leads [.found w.scope.hooks] w.readHooks :=
  ⟨rfl, (List.append_nil _).symm, (List.append_nil _).symm⟩

theorem leads_called (w : World) (hook : Hook) (point : Point) :
    w.Leads [.called hook point] ((w.note (.called hook point)).marked (hook.mark point)) := by
  cases hmark : hook.mark point with
  | none => exact ⟨rfl, by simp [Deed.mark?, hmark, marked, note], (List.append_nil _).symm⟩
  | some mark => exact ⟨rfl, by simp [Deed.mark?, hmark, marked, note], (List.append_nil _).symm⟩

end World

/-! ### Work that ends behind certain deeds -/

section Ends

variable {α β : Type} {mayOverrun : Prop} {w : World} {spec : List Deed → Stock → Prop}

namespace Progress

/-- Work that was begun in a world has ended there behind deeds, and with a stock, that are as they
should be. It has not failed and does not wait. It may be known that it does not go beyond the
limit. -/
inductive Ends (mayOverrun : Prop) (w : World) (spec : List Deed → Stock → Prop) :
    Progress α → Prop
  | done {w' : World} {a : α} {deeds : List Deed} (hleads : w.Leads deeds w')
      (hspec : spec deeds w'.stock) : Ends mayOverrun w spec (done w' a)
  | overrun (h : mayOverrun) : Ends mayOverrun w spec overrun

variable {p : Progress α}

theorem Ends.mono (h : p.Ends mayOverrun w spec) {spec' : List Deed → Stock → Prop}
    (hspec : ∀ deeds s, spec deeds s → spec' deeds s) : p.Ends mayOverrun w spec' := by
  cases h with
  | done hleads h => exact .done hleads (hspec _ _ h)
  | overrun h => exact .overrun h

/-- What has led to a world counts for the work that begins there. -/
theorem Ends.behind {w' : World} {deeds : List Deed} (hleads : w.Leads deeds w')
    (h : p.Ends mayOverrun w' fun more s => spec (deeds ++ more) s) : p.Ends mayOverrun w spec := by
  cases h with
  | done hmore h => exact .done (hleads.trans hmore) h
  | overrun h => exact .overrun h

theorem Ends.andThen (h : p.Ends mayOverrun w spec) {next : α → Work β}
    {spec' : List Deed → Stock → Prop}
    (hnext : ∀ deeds w' a, spec deeds w'.stock →
      (next a w').Ends mayOverrun w' fun more s => spec' (deeds ++ more) s) :
    (p.andThen next).Ends mayOverrun w spec' := by
  cases h with
  | done hleads h => exact .behind hleads (hnext _ _ _ h)
  | overrun h => exact .overrun h

theorem Ends.map (h : p.Ends mayOverrun w spec) (f : α → β) :
    (p.andThen fun a => Work.answer (f a)).Ends mayOverrun w spec := by
  cases h with
  | done hleads h => exact .done hleads h
  | overrun h => exact .overrun h

/-- Work that was begun in a world has ended there behind these deeds, and with this stock. -/
def Reaches (p : Progress α) (w : World) (deeds : List Deed) (s : Stock) : Prop :=
  p.Ends False w fun done t => done = deeds ∧ t = s

theorem Reaches.andThen {deeds more : List Deed} {s s' : Stock} (h : p.Reaches w deeds s)
    {next : α → Work β}
    (hnext : ∀ w' a, w'.stock = s → (next a w').Reaches w' more s') :
    (p.andThen next).Reaches w (deeds ++ more) s' := by
  refine Ends.andThen h ?_
  rintro _ w' a ⟨rfl, hstock⟩
  refine (hnext w' a hstock).mono ?_
  rintro _ t ⟨rfl, ht⟩
  exact ⟨rfl, ht⟩

theorem Ends.toEnd (h : p.Ends mayOverrun w spec) : p.toEnd.Ends mayOverrun w spec := by
  cases h with
  | done hleads h => exact .done hleads h
  | overrun h => exact .overrun h

end Progress

variable {call : Caller} {point : Point}

theorem ends_work_of_act (call : Caller) {action : Action} {s : Stock} {deeds : List Deed}
    (hact : w.stock.act action = some (s, deeds)) :
    (action.work call w).Ends mayOverrun w fun done t => done = deeds ∧ t = s := by
  cases action with
  | register supply =>
    obtain ⟨rfl, rfl⟩ := Prod.mk.inj (Option.some.inj hact)
    obtain ⟨hstock, hleads⟩ := w.leads_register supply
    exact .done hleads ⟨rfl, hstock⟩
  | clear =>
    obtain ⟨rfl, rfl⟩ := Prod.mk.inj (Option.some.inj hact)
    exact .done w.leads_clear ⟨rfl, rfl⟩
  | hooks =>
    obtain ⟨rfl, rfl⟩ := Prod.mk.inj (Option.some.inj hact)
    exact .done w.leads_readHooks ⟨rfl, rfl⟩
  | inScope =>
    obtain ⟨rfl, rfl⟩ := Prod.mk.inj (Option.some.inj hact)
    exact .done (.refl w) ⟨rfl, rfl⟩
  | trigger | fire | yield | fail | sync | scope | rescue | thread | join | cancel =>
    exact nomatch hact

/-- What a round is to come to, seen from behind the reading of the list. -/
theorem ends_triggerHooks
    (h : ∀ v : World, v.stock = w.stock → (callEach call point w.scope.hooks v).Ends mayOverrun v
      fun deeds s => spec (.found w.scope.hooks :: deeds) s) :
    (triggerHooks call point w).Ends mayOverrun w spec := by
  have hread := h (w.readHooks.report [.logged .hooksTriggered]) rfl
  exact .behind (w.leads_readHooks.report _) hread

theorem ends_work_of_round {action : Action} (haction : action.round? = some point)
    (h : ∀ v : World, v.stock = w.stock → (callEach call point w.scope.hooks v).Ends mayOverrun v
      fun deeds s => spec (.found w.scope.hooks :: deeds) s) :
    (action.work call w).Ends mayOverrun w spec := by
  cases action with
  | trigger other =>
    obtain rfl := Option.some.inj haction
    exact (ends_triggerHooks h).map _
  | fire other =>
    obtain rfl := Option.some.inj haction
    have hread := h w.readHooks rfl
    exact (Progress.Ends.behind w.leads_readHooks hread).map _ |>.map _
  | register | clear | hooks | inScope | yield | fail | sync | scope | rescue | thread | join
  | cancel => exact nomatch haction

theorem ends_call {depth : Nat} {hook : Hook}
    (h : ∀ v : World, v.stock = w.stock →
      (course (Hook.call depth) (hook.reaction point) v).Ends mayOverrun v
        fun deeds s => spec (.called hook point :: deeds) s) :
    (Hook.call (depth + 1) hook point (w.note (.called hook point))).Ends mayOverrun w spec := by
  refine .behind (w.leads_called hook point) ?_
  have hstock : ((w.note (.called hook point)).marked (hook.mark point)).stock = w.stock := by
    cases hook.mark point <;> rfl
  exact (h _ hstock).toEnd.map _

/-- The same of deeds that are known. -/
theorem reaches_call {depth : Nat} {hook : Hook} {deeds : List Deed} {s : Stock}
    (h : ∀ v : World, v.stock = w.stock →
      (course (Hook.call depth) (hook.reaction point) v).Reaches v deeds s) :
    (Hook.call (depth + 1) hook point (w.note (.called hook point))).Reaches w
      (.called hook point :: deeds) s := by
  refine ends_call fun v hv => (h v hv).mono ?_
  rintro _ t ⟨rfl, ht⟩
  exact ⟨rfl, ht⟩

theorem ends_course_cons {action : Action} {rest : List Action}
    (h : (action.work call w).Ends mayOverrun w spec) {spec' : List Deed → Stock → Prop}
    (hrest : ∀ deeds w', spec deeds w'.stock →
      (course call rest w').Ends mayOverrun w' fun more s => spec' (deeds ++ more) s) :
    (course call (action :: rest) w).Ends mayOverrun w spec' :=
  h.andThen fun deeds w' _ hspec => (hrest deeds w' hspec).map _

theorem reaches_course_cons {action : Action} {rest : List Action} {deeds more : List Deed}
    {s s' : Stock} (h : (action.work call w).Reaches w deeds s)
    (hrest : ∀ w' : World, w'.stock = s → (course call rest w').Reaches w' more s') :
    (course call (action :: rest) w).Reaches w (deeds ++ more) s' :=
  h.andThen fun w' _ hstock => (hrest w' hstock).map _

end Ends

/-! ### What is done follows the rules -/

/-- The calls of hooks carry out their scripts, unless they go beyond the limit. -/
def Caller.CarriesOut (call : Caller) : Prop :=
  ∀ hook point (w : World), hook.isPlain → w.stock.Plain →
    (call hook point (w.note (.called hook point))).Ends True w fun deeds s =>
      s.Plain ∧ ∃ more, deeds = .called hook point :: more ∧
        Carries (hook.reaction point) w.stock more s

variable {call : Caller} {w : World}

/-- A round visits the hooks that it is to go over, one after the other. -/
theorem carriesOut_callEach (hcall : call.CarriesOut) (point : Point) {hooks : List Hook}
    (hhooks : ∀ hook ∈ hooks, hook.isPlain) (hplain : w.stock.Plain) :
    (callEach call point hooks w).Ends True w fun deeds s =>
      s.Plain ∧ ∃ visits, visits.map Visit.hook = hooks ∧
        deeds = visits.flatMap (Visit.all point) ∧ Visits point w.stock visits s := by
  induction hooks generalizing w with
  | nil => exact .done (.refl w) ⟨hplain, [], rfl, rfl, .nil point w.stock⟩
  | cons hook hooks ih =>
    obtain ⟨hhook, hhooks⟩ := List.forall_mem_cons.1 hhooks
    refine (hcall hook point w hhook hplain).andThen ?_
    rintro _ w' - ⟨hplain', more, rfl, hcarries⟩
    refine (ih hhooks hplain').mono ?_
    rintro _ s ⟨hs, visits, hmap, rfl, hvisits⟩
    exact ⟨hs, ⟨hook, more⟩ :: visits, congrArg (hook :: ·) hmap, rfl, .cons hcarries hvisits⟩

theorem carriesOut_round (hcall : call.CarriesOut) (point : Point) (hplain : w.stock.Plain)
    (v : World) (hv : v.stock = w.stock) :
    (callEach call point w.scope.hooks v).Ends True v fun deeds s =>
      s.Plain ∧ HasRound point w.stock (.found w.scope.hooks :: deeds) s := by
  refine (carriesOut_callEach hcall point hplain.hooks (hv ▸ hplain)).mono ?_
  rintro _ s ⟨hs, visits, hhooks, rfl, hvisits⟩
  refine ⟨hs, visits, hhooks, ?_, hv ▸ hvisits⟩
  rw [roundDeeds, hhooks]
  rfl

theorem carriesOut_course (hcall : call.CarriesOut) {script : List Action}
    (hscript : arePlain script) (hplain : w.stock.Plain) :
    (course call script w).Ends True w fun deeds s =>
      s.Plain ∧ Carries script w.stock deeds s := by
  induction script generalizing w with
  | nil => exact .done (.refl w) ⟨hplain, .nil w.stock⟩
  | cons action rest ih =>
    obtain ⟨haction, hrest⟩ := Bool.and_eq_true_iff.1 hscript
    -- either way the rest finds hooks with plain scripts only, and is carried out as well
    rcases w.stock.act_or_round haction with ⟨s', done, hact⟩ | ⟨point, hround⟩
    · refine ends_course_cons (ends_work_of_act call hact) ?_
      rintro _ w' ⟨rfl, rfl⟩
      refine (ih hrest (hplain.act haction hact)).mono ?_
      rintro more s ⟨hs, hcarries⟩
      exact ⟨hs, .act hact hcarries⟩
    · have hwork : (action.work call w).Ends True w fun deeds s =>
          s.Plain ∧ HasRound point w.stock deeds s :=
        ends_work_of_round hround (carriesOut_round hcall point hplain)
      refine ends_course_cons hwork ?_
      rintro _ w' ⟨hplain', visits, hhooks, rfl, hvisits⟩
      refine (ih hrest hplain').mono ?_
      rintro more s ⟨hs, hcarries⟩
      exact ⟨hs, .round hround hhooks hvisits hcarries⟩

/-- A call of a hook carries out its script, however deep calls within calls may go. -/
theorem Caller.carriesOut_call (depth : Nat) : Caller.CarriesOut (Hook.call depth) := by
  -- the calls in the script of a hook go one less deep
  induction depth with
  | zero => exact fun _ _ _ _ _ => .overrun trivial
  | succ depth ih =>
    intro hook point w hhook hplain
    refine ends_call fun v hv => ?_
    rw [← hv] at hplain ⊢
    refine (carriesOut_course ih (hook.arePlain_reaction hhook point) hplain).mono ?_
    rintro deeds s ⟨hs, hcarries⟩
    exact ⟨hs, deeds, rfl, hcarries⟩

/-! ### What the rules allow is done -/

/-- The visits of a round, seen from behind the reading of the list. -/
theorem reaches_round {call : Caller} {point : Point} {w : World} {visits : List Visit}
    {s : Stock} (hhooks : visits.map Visit.hook = w.scope.hooks)
    (h : ∀ v : World, v.stock = w.stock →
      (callEach call point (visits.map Visit.hook) v).Reaches v
        (visits.flatMap (Visit.all point)) s)
    (v : World) (hv : v.stock = w.stock) :
    (callEach call point w.scope.hooks v).Ends False v fun done t =>
      .found w.scope.hooks :: done = roundDeeds point visits ∧ t = s := by
  rw [← hhooks]
  refine (h v hv).mono ?_
  rintro _ t ⟨rfl, ht⟩
  exact ⟨rfl, ht⟩

mutual

/-- What the rules allow a script is done, if calls may go deep enough. -/
theorem Carries.reached {script : List Action} {s s' : Stock} {deeds : List Deed} :
    Carries script s deeds s' → ∃ depth, ∀ deeper, depth ≤ deeper → ∀ w : World, w.stock = s →
      (course (Hook.call deeper) script w).Reaches w deeds s'
  | .nil s => ⟨0, fun _ _ w hw => .done (.refl w) ⟨rfl, hw⟩⟩
  | .act hact hrest => by
    obtain ⟨depth, ih⟩ := hrest.reached
    refine ⟨depth, fun deeper hdeeper w hw => ?_⟩
    subst hw
    exact reaches_course_cons (ends_work_of_act _ hact) (ih deeper hdeeper)
  | .round haction hhooks hvisits hrest => by
    -- the round and the rest may need different depths
    obtain ⟨depth, ihvisits⟩ := hvisits.reached
    obtain ⟨depth', ihrest⟩ := hrest.reached
    refine ⟨max depth depth', fun deeper hdeeper w hw => ?_⟩
    subst hw
    obtain ⟨hvisitsDepth, hrestDepth⟩ := Nat.max_le.1 hdeeper
    exact reaches_course_cons
      (ends_work_of_round haction (reaches_round hhooks (ihvisits deeper hvisitsDepth)))
      (ihrest deeper hrestDepth)

/-- What the rules allow a number of visits is done, if calls may go deep enough. -/
theorem Visits.reached {point : Point} {visits : List Visit} {s s' : Stock} :
    Visits point s visits s' → ∃ depth, ∀ deeper, depth ≤ deeper → ∀ w : World, w.stock = s →
      (callEach (Hook.call deeper) point (visits.map Visit.hook) w).Reaches w
        (visits.flatMap (Visit.all point)) s'
  | .nil _ _ => ⟨0, fun _ _ w hw => .done (.refl w) ⟨rfl, hw⟩⟩
  | .cons hcall hrest => by
    obtain ⟨depth, ihcall⟩ := hcall.reached
    obtain ⟨depth', ihrest⟩ := hrest.reached
    refine ⟨max (depth + 1) depth', fun deeper hdeeper w hw => ?_⟩
    subst hw
    obtain ⟨hcallDepth, hrestDepth⟩ := Nat.max_le.1 hdeeper
    -- the script of the hook runs one call deeper
    obtain ⟨inner, rfl⟩ := Nat.exists_eq_add_of_le' hcallDepth
    have hvisit := reaches_call (ihcall (inner + depth) (Nat.le_add_left depth inner))
    exact hvisit.andThen fun w' _ => ihrest _ hrestDepth w'

end

/-! ### Rounds -/

/-- A round from its beginning to its end. Exactly the hooks of the list are visited, in its order,
and each visit is over before the next one begins. The round leaves the deeds of the visits, their
marks, and the list that they make. -/
structure IsRound (point : Point) (w : World) (visits : List Visit) (w' : World) : Prop where
  hooks_eq : visits.map Visit.hook = w.scope.hooks
  visited : Visits point w.stock visits w'.stock
  leads : w.Leads (roundDeeds point visits) w'

/-- A round goes beyond the limit, or it is one from its beginning to its end. -/
theorem isRound_or_overrun (point : Point) {w : World} (hplain : w.stock.Plain) (depth : Nat) :
    triggerHooks (Hook.call depth) point w = .overrun ∨
      ∃ w' visits, triggerHooks (Hook.call depth) point w = .done w' () ∧
        IsRound point w visits w' ∧ w'.stock.Plain := by
  have hends : (triggerHooks (Hook.call depth) point w).Ends True w fun deeds s =>
      s.Plain ∧ HasRound point w.stock deeds s :=
    ends_triggerHooks (carriesOut_round (Caller.carriesOut_call depth) point hplain)
  cases hprogress : triggerHooks (Hook.call depth) point w with
  | done w' =>
    rw [hprogress] at hends
    obtain ⟨hleads, hplain', visits, hhooks, rfl, hvisits⟩ := hends
    exact .inr ⟨w', visits, rfl, ⟨hhooks, hvisits, hleads⟩, hplain'⟩
  | overrun => exact .inl rfl
  | failed | paused =>
    rw [hprogress] at hends
    exact nomatch hends

/-- Whatever plain scripts the hooks have, a round neither fails nor waits, though calls within
calls may go beyond the limit. If they do not, it visits exactly the hooks that were in the list
when it began, with all that is done in a visit over before the next one. The list behind it is what
the deeds of the visits make of the list before it, and that is what the next round goes over. If
the rules say how the rounds within a round end, calls stay within the limit from some depth on, and
the round comes to what the rules say. -/
theorem rounds_undisturbed (point : Point) {w : World} (hplain : w.stock.Plain) :
    (∀ depth, triggerHooks (Hook.call depth) point w = .overrun ∨
      ∃ w' visits, triggerHooks (Hook.call depth) point w = .done w' () ∧
        IsRound point w visits w' ∧
        ∀ next depth', triggerHooks (Hook.call depth') next w' = .overrun ∨
          ∃ w'' more, triggerHooks (Hook.call depth') next w' = .done w'' () ∧
            IsRound next w' more w'' ∧
            more.map Visit.hook = replay w.scope.hooks (roundDeeds point visits)) ∧
    ∀ visits s, visits.map Visit.hook = w.scope.hooks → Visits point w.stock visits s →
      (∃ depth, ∀ deeper, depth ≤ deeper →
        triggerHooks (Hook.call deeper) point w ≠ .overrun) ∧
      ∀ depth w', triggerHooks (Hook.call depth) point w = .done w' () →
        w'.stock = s ∧ IsRound point w visits w' := by
  constructor
  · intro depth
    refine (isRound_or_overrun point hplain depth).imp_right ?_
    rintro ⟨w', visits, hdone, hround, hplain'⟩
    -- the scripts are plain behind the round as well, so the same holds of the next one
    refine ⟨w', visits, hdone, hround, fun next depth' => ?_⟩
    refine (isRound_or_overrun next hplain' depth').imp_right ?_
    rintro ⟨w'', more, hdone', hmore, -⟩
    exact ⟨w'', more, hdone', hmore, hmore.hooks_eq.trans hround.leads.hooks_eq⟩
  · intro visits s hhooks hvisits
    constructor
    · obtain ⟨depth, hreached⟩ := hvisits.reached
      refine ⟨depth, fun deeper hdeeper hoverrun => ?_⟩
      have hround : (triggerHooks (Hook.call deeper) point w).Ends False w
          fun done t => done = roundDeeds point visits ∧ t = s :=
        ends_triggerHooks (reaches_round hhooks (hreached deeper hdeeper))
      rw [hoverrun] at hround
      cases hround with
      | overrun h => exact h
    · intro depth w' hdone
      rcases isRound_or_overrun point hplain depth with hoverrun | ⟨end', found, hend, hround, -⟩
      · exact nomatch hdone.symm.trans hoverrun
      · -- the round that was found is the only one that the rules allow
        obtain ⟨rfl, -⟩ := Progress.done.inj (hend.symm.trans hdone)
        obtain ⟨rfl, rfl⟩ := hvisits.unique (hhooks.trans hround.hooks_eq.symm) hround.visited
        exact ⟨rfl, hround⟩

/-- The world in which a round has ended. -/
def Progress.world? {α : Type} : Progress α → Option World
  | .done w _ => some w
  | .failed _ | .overrun | .paused _ _ => none

/-- Of two hooks the first one registers the second one again and a third one, has all four called,
each of the second ones registering itself once more and the third one clearing the list, and clears
the list itself. The second one is called all the same, and registers the first one, which is then
all that the next round goes over. -/
theorem round_around_nested_clearing :
    let c : Hook := .mk "c" .everyPoint fun _ => [.clear]
    let b : Hook := .mk "b" .everyPoint fun point =>
      match point with
      | .beforeCommit => [.register (.known "a")]
      | _ => [.register (.known "b"), .register .nothing]
    let a : Hook := .mk "a" .everyPoint fun point =>
      match point with
      | .beforeCommit =>
        [.register (.known "b"), .register (.fresh c), .trigger .afterCommit, .clear]
      | _ => [.hooks, .inScope]
    let w : World := { World.start with scope := some ⟨some [a, b]⟩, named := [("a", a), ("b", b)] }
    ∃ w' visits, triggerHooks (Hook.call callDepth) .beforeCommit w = .done w' () ∧
      IsRound .beforeCommit w visits w' ∧ visits.map Visit.hook = [a, b] ∧
      w'.calls = ["a:before_commit", "a:after_commit", "b:after_commit", "b:after_commit",
        "c:after_commit", "b:before_commit"] ∧
      w'.scope.hooks.map Hook.name = ["a"] := by
  intro c b a w
  have hplain : w.stock.Plain := ⟨by decide, by decide⟩
  have hseen : (triggerHooks (Hook.call callDepth) .beforeCommit w).world?.map
      (fun w' => (w'.calls, w'.scope.hooks.map Hook.name)) =
      some (["a:before_commit", "a:after_commit", "b:after_commit", "b:after_commit",
        "c:after_commit", "b:before_commit"], ["a"]) := by decide +kernel
  obtain ⟨hends, -⟩ := rounds_undisturbed .beforeCommit hplain
  rcases hends callDepth with hover | ⟨w', visits, hdone, hround, -⟩
  · rw [hover] at hseen
    exact nomatch hseen
  · rw [hdone] at hseen
    obtain ⟨hcalls, hnames⟩ := Prod.mk.inj (Option.some.inj hseen)
    exact ⟨w', visits, hdone, hround, hround.hooks_eq, hcalls, hnames⟩

end GlobalTransaction.Lifecycle
