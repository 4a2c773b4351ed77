import GlobalTransaction.Proofs.Lifecycle.Deeds

/-!
# What work has done whenever it shows the world

Work shows the world where it ends, where it fails, and where it waits. In between others may go on
with the world, or the work may be dropped. So what work does is told up to each of these moments:
the deeds that it has done by then, and what they have made of the list.

## Main definitions

* `Lifecycle.Stage` — how far work has got
* `Progress.Performs`, `Work.Performs` — what work has done at every such moment, with others in
  between
* `Progress.Alone` — the same of work whose place nobody else has
* `Progress.Restores` — at every such moment the place is the one that work was taken up at

## Main results

* `Progress.Performs.andThen`, `Work.Performs.within` and others — work made of work
* `Progress.restores_leave` — leaving a scope restores the place around it
* `Work.limited_within` — turns may be given to work in its scope
-/

set_option autoImplicit false

namespace GlobalTransaction.Lifecycle

variable {α β γ : Type}

/-- How far work has got. -/
inductive Stage (α : Type)
  | ended (answer : α)
  | failed
  | waiting

namespace Stage

/-- The same stage with another answer. -/
def map (f : α → β) : Stage α → Stage β
  | ended a => ended (f a)
  | failed => failed
  | waiting => waiting

/-- The stage of work whose failure is an answer. -/
def rescued : Stage α → Stage (Option α)
  | ended a => ended (some a)
  | failed => ended none
  | waiting => waiting

/-- The stage of work that is dropped where it waits. -/
def dropped : Stage α → Stage (Option α)
  | ended a => ended (some a)
  | failed => failed
  | waiting => ended none

/-- The work does not go on. -/
def isOver : Stage α → Bool
  | ended _ | failed => true
  | waiting => false

end Stage

/-! ### Moments of a piece of work -/

namespace Progress

variable {mayOverrun mayOverrun' : Prop} {w : World}

/-- At every moment at which work that was begun in a world shows one again, it has done deeds as
they should be at its stage, and they have made the list. Where it waits, others may do to the list
what they like, and the deeds that follow join its own. It may be known that it does not go beyond
the limit. -/
inductive Performs (mayOverrun : Prop) :
    Progress α → World → (List Deed → Stage α → Prop) → Prop
  | done {w w' : World} {a : α} {deeds : List Deed} {spec : List Deed → Stage α → Prop}
      (hbecomes : w.scope.Becomes deeds w'.scope) (hspec : spec deeds (.ended a)) :
      Performs mayOverrun (done w' a) w spec
  | failed {w w' : World} {deeds : List Deed} {spec : List Deed → Stage α → Prop}
      (hbecomes : w.scope.Becomes deeds w'.scope) (hspec : spec deeds .failed) :
      Performs mayOverrun (failed w') w spec
  | overrun {w : World} {spec : List Deed → Stage α → Prop} (h : mayOverrun) :
      Performs mayOverrun overrun w spec
  | paused {w w' : World} {rest : World → Progress α} {deeds : List Deed}
      {spec : List Deed → Stage α → Prop}
      (hbecomes : w.scope.Becomes deeds w'.scope) (hspec : spec deeds .waiting)
      (hrest : ∀ later : World, later.scope.isActive = w'.scope.isActive →
        Performs mayOverrun (rest later) later fun more => spec (deeds ++ more)) :
      Performs mayOverrun (paused w' rest) w spec

variable {p : Progress α} {spec spec' : List Deed → Stage α → Prop}

theorem Performs.mono (h : p.Performs mayOverrun w spec) (hoverrun : mayOverrun → mayOverrun')
    (hspec : ∀ deeds stage, spec deeds stage → spec' deeds stage) :
    p.Performs mayOverrun' w spec' := by
  induction h generalizing spec' with
  | done hbecomes h => exact .done hbecomes (hspec _ _ h)
  | failed hbecomes h => exact .failed hbecomes (hspec _ _ h)
  | overrun h => exact .overrun (hoverrun h)
  | paused hbecomes h _ ih =>
    exact .paused hbecomes (hspec _ _ h) fun later hlater => ih later hlater fun _ => hspec _

/-- What was done before a piece of work joins its deeds. -/
theorem Performs.behind (v : World) {deeds : List Deed} (hbecomes : w.scope.Becomes deeds v.scope)
    (h : p.Performs mayOverrun v fun more => spec (deeds ++ more)) :
    p.Performs mayOverrun w spec := by
  cases h with
  | done hmore h => exact .done (hbecomes.trans hmore) h
  | failed hmore h => exact .failed (hbecomes.trans hmore) h
  | overrun h => exact .overrun h
  | paused hmore h hrest =>
    refine .paused (hbecomes.trans hmore) h fun later hlater => ?_
    refine (hrest later hlater).mono id fun more stage hmore => ?_
    rw [List.append_assoc]
    exact hmore

theorem Performs.andThen (h : p.Performs mayOverrun w spec) {next : α → Work β}
    {spec' : List Deed → Stage β → Prop}
    (hnext : ∀ deeds a, spec deeds (.ended a) → ∀ v : World, v.scope.isActive = w.scope.isActive →
      (next a v).Performs mayOverrun v fun more => spec' (deeds ++ more))
    (hfailed : ∀ deeds, spec deeds .failed → spec' deeds .failed)
    (hwaiting : ∀ deeds, spec deeds .waiting → spec' deeds .waiting) :
    (p.andThen next).Performs mayOverrun w spec' := by
  induction h generalizing spec' with
  | done hbecomes h => exact .behind _ hbecomes (hnext _ _ h _ hbecomes.isActive_eq)
  | failed hbecomes h => exact .failed hbecomes (hfailed _ h)
  | overrun h => exact .overrun h
  | paused hbecomes h _ ih =>
    refine .paused hbecomes (hwaiting _ h) fun later hlater => ih later hlater ?_ ?_ ?_
    · intro more a hmore v hv
      have hrest := hnext _ a hmore v (hv.trans (hlater.trans hbecomes.isActive_eq))
      simpa only [List.append_assoc] using hrest
    · exact fun _ => hfailed _
    · exact fun _ => hwaiting _

theorem Performs.toEnd (h : p.Performs mayOverrun w spec) :
    p.toEnd.Performs mayOverrun w fun deeds stage => stage.isOver = true ∧ spec deeds stage := by
  induction h with
  | done hbecomes h => exact .done hbecomes ⟨rfl, h⟩
  | failed hbecomes h => exact .failed hbecomes ⟨rfl, h⟩
  | overrun h => exact .overrun h
  | paused hbecomes _ _ ih => exact .behind _ hbecomes (ih _ rfl)

theorem Performs.rescued (h : p.Performs mayOverrun w spec) :
    p.rescued.Performs mayOverrun w fun deeds stage =>
      ∃ reached : Stage α, reached.isOver = true ∧ stage = reached.rescued ∧
        spec deeds reached := by
  induction h with
  | done hbecomes h => exact .done hbecomes ⟨_, rfl, rfl, h⟩
  | failed hbecomes h => exact .done hbecomes ⟨_, rfl, rfl, h⟩
  | overrun h => exact .overrun h
  | paused hbecomes _ _ ih => exact .behind _ hbecomes (ih _ rfl)

/-! ### Work whose place nobody else has -/

/-- At every moment at which work shows the world, something holds of its deeds so far, its stage
and that world. Where it waits, it is taken up again at the place that it has left. -/
def Alone (mayOverrun : Prop) (holds : List Deed → Stage α → World → Prop) :
    Progress α → List Deed → Prop
  | done w a, before => ∃ more, holds (before ++ more) (.ended a) w
  | failed w, before => ∃ more, holds (before ++ more) .failed w
  | overrun, _ => mayOverrun
  | paused w rest, before => ∃ more, holds (before ++ more) .waiting w ∧
      ∀ later : World, later.toPlace = w.toPlace →
        (rest later).Alone mayOverrun holds (before ++ more)

/-- What work does to a list that only it has, is told of the whole from the beginning. -/
theorem Performs.alone (h : p.Performs mayOverrun w spec) {s : Scope Hook} {before : List Deed}
    (hbefore : s.Becomes before w.scope)
    (hspec : ∀ more stage, spec more stage → spec' (before ++ more) stage) :
    p.Alone mayOverrun (fun deeds stage v => s.Becomes deeds v.scope ∧ spec' deeds stage)
      before := by
  induction h generalizing before with
  | done hbecomes h => exact ⟨_, hbefore.trans hbecomes, hspec _ _ h⟩
  | failed hbecomes h => exact ⟨_, hbefore.trans hbecomes, hspec _ _ h⟩
  | overrun h => exact h
  | paused hbecomes h _ ih =>
    refine ⟨_, ⟨hbefore.trans hbecomes, hspec _ _ h⟩, fun later hlater => ?_⟩
    have hscope := congrArg Place.scope hlater
    refine ih later (congrArg Scope.isActive hscope) ?_ fun more stage hmore => ?_
    · rw [hscope]
      exact hbefore.trans hbecomes
    · rw [List.append_assoc]
      exact hspec _ stage hmore

theorem Alone.mono {holds holds' : List Deed → Stage α → World → Prop} {before : List Deed}
    (h : p.Alone mayOverrun holds before)
    (hholds : ∀ deeds stage v, holds deeds stage v → holds' deeds stage v) :
    p.Alone mayOverrun holds' before := by
  induction p generalizing before with
  | done | failed =>
    obtain ⟨more, hmore⟩ := h
    exact ⟨more, hholds _ _ _ hmore⟩
  | overrun => exact h
  | paused w rest ih =>
    obtain ⟨more, hmore, hrest⟩ := h
    exact ⟨more, hholds _ _ _ hmore, fun later hlater => ih later (hrest later hlater)⟩

/-- Seen from the place around it, work in a scope does nothing there. -/
theorem Alone.leave {holds : List Deed → Stage α → World → Prop} {before : List Deed}
    (h : p.Alone mayOverrun holds before) (w : World) :
    (p.leave w.toPlace).Performs mayOverrun w fun deeds stage =>
      deeds = [] ∧ ∃ done v, holds done stage v := by
  induction p generalizing before w with
  | done | failed =>
    obtain ⟨more, hmore⟩ := h
    constructor
    · exact .refl w.scope
    · exact ⟨rfl, _, _, hmore⟩
  | overrun => exact .overrun h
  | paused v rest ih =>
    obtain ⟨more, hmore, hrest⟩ := h
    -- the work finds its scope as it left it
    exact .paused (.refl w.scope) ⟨rfl, _, _, hmore⟩ fun later _ =>
      ih (later.goTo v.toPlace) (hrest _ rfl) later

/-! ### The place around a scope -/

/-- The place is the one at which work was taken up, wherever it ends, fails or waits. -/
def Restores (place : Place) : Progress α → Prop
  | done w _ => w.toPlace = place
  | failed w => w.toPlace = place
  | overrun => True
  | paused w rest => w.toPlace = place ∧ ∀ later, (rest later).Restores later.toPlace

/-- Whatever work has done in a scope, and however it comes out of it, the place around is back. -/
theorem restores_leave (p : Progress α) (outer : Place) : (p.leave outer).Restores outer := by
  induction p generalizing outer with
  | done w a => rfl
  | failed w => rfl
  | overrun => trivial
  | paused w rest ih => exact ⟨rfl, fun later => ih _ later.toPlace⟩

/-- The answer of work may be changed before it leaves its scope, or afterwards. -/
theorem leave_map (p : Progress α) (f : α → β) (outer : Place) :
    (p.leave outer).andThen (fun a => Work.answer (f a))
      = (p.andThen fun a => Work.answer (f a)).leave outer := by
  induction p generalizing outer with
  | done | failed | overrun => rfl
  | paused w rest ih =>
    simp only [leave, andThen, paused.injEq, true_and]
    funext later
    exact ih (later.goTo w.toPlace) later.toPlace

end Progress

namespace Work

variable {mayOverrun mayOverrun' : Prop} {inScope : Bool} {spec : List Deed → Stage α → Prop}

/-- Wherever work is begun, in a scope or outside, it does deeds as they should be at its stage. -/
def Performs (mayOverrun : Prop) (inScope : Bool) (work : Work α)
    (spec : List Deed → Stage α → Prop) : Prop :=
  ∀ w : World, w.scope.isActive = inScope → (work w).Performs mayOverrun w spec

theorem performs_answer {a : α} (h : spec [] (.ended a)) :
    (answer a).Performs mayOverrun inScope spec :=
  fun w _ => .done (.refl w.scope) h

theorem Performs.mono {work : Work α} (h : work.Performs mayOverrun inScope spec)
    {spec' : List Deed → Stage α → Prop}
    (hspec : ∀ deeds stage, spec deeds stage → spec' deeds stage) :
    work.Performs mayOverrun inScope spec' :=
  fun w hw => (h w hw).mono id hspec

/-- Less may be known about the limit. -/
theorem Performs.weaken {work : Work α} (h : work.Performs mayOverrun inScope spec)
    (hoverrun : mayOverrun → mayOverrun') : work.Performs mayOverrun' inScope spec :=
  fun w hw => (h w hw).mono hoverrun fun _ _ => id

theorem Performs.andThen {work : Work α} (h : work.Performs mayOverrun inScope spec)
    {next : α → Work β} {spec' : List Deed → Stage β → Prop}
    (hnext : ∀ deeds a, spec deeds (.ended a) →
      (next a).Performs mayOverrun inScope fun more => spec' (deeds ++ more))
    (hfailed : ∀ deeds, spec deeds .failed → spec' deeds .failed)
    (hwaiting : ∀ deeds, spec deeds .waiting → spec' deeds .waiting) :
    (work.andThen next).Performs mayOverrun inScope spec' :=
  fun w hw => (h w hw).andThen (fun deeds a ha v hv => hnext deeds a ha v (hv.trans hw))
    hfailed hwaiting

theorem Performs.map {work : Work α} (h : work.Performs mayOverrun inScope spec) {f : α → β}
    {spec' : List Deed → Stage β → Prop}
    (hspec : ∀ deeds stage, spec deeds stage → spec' deeds (stage.map f)) :
    (work.map f).Performs mayOverrun inScope spec' := by
  refine h.andThen (fun deeds a ha => performs_answer ?_) (fun _ => hspec _ _) fun _ => hspec _ _
  rw [List.append_nil]
  exact hspec _ _ ha

theorem Performs.toEnd {work : Work α} (h : work.Performs mayOverrun inScope spec) :
    work.toEnd.Performs mayOverrun inScope fun deeds stage =>
      stage.isOver = true ∧ spec deeds stage :=
  fun w hw => (h w hw).toEnd

theorem Performs.rescued {work : Work α} (h : work.Performs mayOverrun inScope spec) :
    work.rescued.Performs mayOverrun inScope fun deeds stage =>
      ∃ reached : Stage α, reached.isOver = true ∧ stage = reached.rescued ∧ spec deeds reached :=
  fun w hw => (h w hw).rescued

/-- Work in a scope of its own does nothing around it, and what it does in there is consistent from
the beginning, with all waits in between. -/
theorem Performs.within {work : Work α} {inner : Scope Hook} (hempty : inner.hooks = [])
    (h : work.Performs mayOverrun inner.isActive spec) :
    (work.within inner).Performs mayOverrun inScope fun deeds stage =>
      deeds = [] ∧ ∃ done, Consistent inner.isActive done ∧ spec done stage := by
  intro w _
  have halone := (h (w.goTo (.opening inner)) rfl).alone (.refl inner) fun _ _ => id
  refine (halone.leave w).mono id ?_
  rintro deeds stage ⟨rfl, done, v, hbecomes, hspec⟩
  exact ⟨rfl, done, hbecomes.consistent hempty, hspec⟩

/-- Work that is dropped has done what it had done when it waited last. -/
theorem Performs.limited {work : Work α} (h : work.Performs mayOverrun inScope spec)
    (hpending : spec [] .waiting) (turns : Nat) :
    (limited turns work).Performs mayOverrun inScope fun deeds stage =>
      ∃ reached : Stage α, stage = reached.dropped ∧ spec deeds reached := by
  induction turns generalizing work spec with
  | zero => exact performs_answer ⟨.waiting, rfl, hpending⟩
  | succ turns ih =>
    intro w hw
    have hwork := h w hw
    simp only [Work.limited]
    generalize work w = p at hwork ⊢
    cases hwork with
    | done hbecomes hspec => exact .done hbecomes ⟨_, rfl, hspec⟩
    | failed hbecomes hspec => exact .failed hbecomes ⟨.failed, rfl, hspec⟩
    | overrun h => exact .overrun h
    | @paused _ v rest _ _ hbecomes hspec hrest =>
      have hv := hbecomes.isActive_eq.trans hw
      -- the deeds so far stand in front of those of the turns that are left
      have hleft := ih (fun later hlater => hrest later (hlater.trans hv.symm)) ?_
      · exact .behind v hbecomes (hleft v hv)
      · rw [List.append_nil]
        exact hspec

theorem toEnd_within (work : Work α) (inner : Scope Hook) :
    work.toEnd.within inner = (work.within inner).toEnd := by
  funext w
  exact (Progress.toEnd_leave w.toPlace (work (w.goTo (.opening inner)))).symm

theorem map_within (work : Work α) (f : α → β) (inner : Scope Hook) :
    (work.within inner).map f = (work.map f).within inner := by
  funext w
  exact Progress.leave_map (work (w.goTo (.opening inner))) f w.toPlace

/-- Work that gets a number of turns finds its scope again at each of them, so it may as well get
them in there. -/
theorem limited_leave (work : Work α) (turns : Nat) (inside : Place) (w : World) :
    Work.limited turns (fun w => (work (w.goTo inside)).leave w.toPlace) w
      = (Work.limited turns work (w.goTo inside)).leave w.toPlace := by
  induction turns generalizing work inside w with
  | zero => rfl
  | succ turns ih =>
    simp only [Work.limited]
    cases work (w.goTo inside) with
    | done | failed | overrun => rfl
    | paused w' rest => exact ih rest w'.toPlace (w'.goTo w.toPlace)

theorem limited_within (work : Work α) (turns : Nat) (inner : Scope Hook) :
    Work.limited turns (work.within inner) = (Work.limited turns work).within inner := by
  funext w
  exact limited_leave work turns (.opening inner) w

end Work

end GlobalTransaction.Lifecycle
