import GlobalTransaction.Lifecycle.Course

/-!
# What scripts do to the list of hooks

A script may register hooks, clear the list, read it and have its hooks called, and so may the
scripts of the hooks that are called then. What this does to the list is said by rules that know no
world, no journal and no limit to calls within calls. A round goes over the hooks that are in the
list when it begins. Each of them finds the list as the scripts of those before it have left it,
with the rounds that were begun there over.

## Main definitions

* `Hook.isPlain` — the scripts of a hook work on the list, and on nothing else
* `Stock` — what such scripts work on
* `Carries` — what a script does
* `Visits`, `HasRound` — what is done in a round

## Main results

* `Stock.Plain.act` — a single step brings in no other scripts
* `Carries.unique`, `Visits.unique` — scripts and rounds do one thing only
-/

set_option autoImplicit false

namespace GlobalTransaction.Lifecycle

/-! ### Plain scripts -/

mutual

/-- The action works on the list of the innermost scope, and on nothing else. -/
def Action.isPlain : Action → Bool
  | .register supply => supply.isPlain
  | .trigger _ | .clear | .hooks | .inScope | .fire _ => true
  | .yield | .fail | .sync _ | .scope _ | .rescue _ | .thread _ | .join _ _ | .cancel _ _ => false

/-- If a new hook is supplied, its scripts are plain. -/
def Supply.isPlain : Supply → Bool
  | .nothing | .known _ => true
  | .fresh hook => hook.isPlain

/-- The scripts of the hook are plain. -/
def Hook.isPlain : Hook → Bool
  | .mk _ _ script => Point.all.all fun point => arePlain (script point)

/-- All actions of a script are plain. -/
def arePlain : List Action → Bool
  | [] => true
  | action :: rest => action.isPlain && arePlain rest

end

theorem Hook.arePlain_reaction {hook : Hook} (h : hook.isPlain) (point : Point) :
    arePlain (hook.reaction point) := by
  obtain ⟨name, coverage, script⟩ := hook
  have hscript : arePlain (script point) :=
    List.all_eq_true.1 h point (by cases point <;> decide)
  cases coverage with
  | everyPoint => exact hscript
  | commitAndCompletion | nothing | dispatch => rfl

/-! ### What scripts do to the list -/

/-- What plain scripts work on: the list of the innermost scope, and the hooks made so far. -/
structure Stock where
  scope : Scope Hook
  named : Table String Hook

namespace Stock

/-- The hook that is supplied to a registration. A new one is remembered under its name. -/
def supplied (s : Stock) : Supply → Stock × Option Hook
  | .nothing => (s, none)
  | .known name => (s, s.named.lookup name)
  | .fresh hook => ({ s with named := s.named.insert hook.name hook }, some hook)

/-- A registration, and how it comes out. -/
def register (s : Stock) (supply : Supply) : Stock × Deed :=
  let (s, hook) := s.supplied supply
  let o := s.scope.register hook
  ({ s with scope := o.state }, .registered hook o.answer)

/-- What an action does that has no hook called. -/
def act (s : Stock) : Action → Option (Stock × List Deed)
  | .register supply => some ((s.register supply).1, [(s.register supply).2])
  | .clear => some ({ s with scope := s.scope.clear }, [.cleared])
  | .hooks => some (s, [.found s.scope.hooks])
  | .inScope => some (s, [])
  | _ => none

/-- All hooks that can be called have plain scripts. -/
structure Plain (s : Stock) : Prop where
  hooks : ∀ hook ∈ s.scope.hooks, hook.isPlain
  named : ∀ entry ∈ s.named, entry.2.isPlain

end Stock

/-- The point at which an action has the hooks of the list called. -/
def Action.round? : Action → Option Point
  | .trigger point | .fire point => some point
  | _ => none

theorem Stock.act_of_round {action : Action} {point : Point} (h : action.round? = some point)
    (s : Stock) : s.act action = none := by
  cases action with
  | trigger | fire => rfl
  | register | clear | hooks | inScope | yield | fail | sync | scope | rescue | thread | join
  | cancel => exact nomatch h

/-- A call of a hook in a round, with what was done from its beginning to its end. -/
structure Visit where
  hook : Hook
  deeds : List Deed

/-- The deeds of a visit, the call first. -/
def Visit.all (point : Point) (visit : Visit) : List Deed := .called visit.hook point :: visit.deeds

/-- The deeds of a round: the list is read, and its hooks are visited. -/
def roundDeeds (point : Point) (visits : List Visit) : List Deed :=
  .found (visits.map Visit.hook) :: visits.flatMap (Visit.all point)

mutual

/-- A script makes one stock of another, with these deeds. -/
inductive Carries : List Action → Stock → List Deed → Stock → Prop
  | nil (s : Stock) : Carries [] s [] s
  | act {action : Action} {rest : List Action} {s s' s'' : Stock} {deeds more : List Deed}
      (hact : s.act action = some (s', deeds)) (hrest : Carries rest s' more s'') :
      Carries (action :: rest) s (deeds ++ more) s''
  -- the script goes on when the round is over
  | round {action : Action} {rest : List Action} {point : Point} {visits : List Visit}
      {s s' s'' : Stock} {more : List Deed} (haction : action.round? = some point)
      (hhooks : visits.map Visit.hook = s.scope.hooks) (hvisits : Visits point s visits s')
      (hrest : Carries rest s' more s'') :
      Carries (action :: rest) s (roundDeeds point visits ++ more) s''

/-- Visits of hooks, one after the other, make one stock of another. -/
inductive Visits : Point → Stock → List Visit → Stock → Prop
  | nil (point : Point) (s : Stock) : Visits point s [] s
  | cons {point : Point} {hook : Hook} {deeds : List Deed} {visits : List Visit}
      {s s' s'' : Stock} (hcall : Carries (hook.reaction point) s deeds s')
      (hrest : Visits point s' visits s'') : Visits point s (⟨hook, deeds⟩ :: visits) s''

end

/-- A round over the list of a stock makes another one of it, with these deeds. -/
def HasRound (point : Point) (s : Stock) (deeds : List Deed) (s' : Stock) : Prop :=
  ∃ visits, visits.map Visit.hook = s.scope.hooks ∧ deeds = roundDeeds point visits ∧
    Visits point s visits s'

/-! ### Single steps -/

theorem Scope.mem_hooks_register {s : Scope Hook} {supplied : Option Hook} {hook : Hook}
    (h : hook ∈ (s.register supplied).state.hooks) : hook ∈ s.hooks ∨ supplied = some hook := by
  cases s with
  | none => exact nomatch h
  | some r =>
    cases supplied with
    | none => exact .inl h
    | some last =>
      rcases List.mem_append.1 h with hold | hnew
      · exact .inl hold
      · exact .inr (congrArg some (List.mem_singleton.1 hnew).symm)

namespace Stock

variable {s s' : Stock} {action : Action} {deeds : List Deed}

theorem Plain.supplied (h : s.Plain) {supply : Supply} (hsupply : supply.isPlain) :
    (s.supplied supply).1.Plain ∧ ∀ hook ∈ (s.supplied supply).2, hook.isPlain := by
  cases supply with
  | nothing => exact ⟨h, fun _ hhook => nomatch hhook⟩
  | known name =>
    exact ⟨h, fun hook hhook => h.named (name, hook) (Table.mem_of_lookup_eq_some hhook)⟩
  | fresh made =>
    refine ⟨⟨h.hooks, fun entry hentry => ?_⟩, ?_⟩
    · rcases List.mem_cons.1 hentry with rfl | hold
      · exact hsupply
      · exact h.named entry (List.mem_filter.1 hold).1
    · rintro hook ⟨⟩
      exact hsupply

theorem Plain.act (h : s.Plain) (haction : action.isPlain)
    (hact : s.act action = some (s', deeds)) : s'.Plain := by
  cases action with
  | register supply =>
    obtain ⟨rfl, -⟩ := Prod.mk.inj (Option.some.inj hact)
    obtain ⟨hstock, hsupplied⟩ := h.supplied haction
    refine ⟨fun hook hhook => ?_, hstock.named⟩
    exact (Scope.mem_hooks_register hhook).elim (hstock.hooks hook) (hsupplied hook)
  | clear =>
    obtain ⟨rfl, -⟩ := Prod.mk.inj (Option.some.inj hact)
    refine ⟨fun hook hhook => ?_, h.named⟩
    rw [Scope.hooks_clear] at hhook
    exact nomatch hhook
  | hooks | inScope =>
    obtain ⟨rfl, -⟩ := Prod.mk.inj (Option.some.inj hact)
    exact h
  | trigger | fire | yield | fail | sync | scope | rescue | thread | join | cancel =>
    exact nomatch hact

/-- A plain action has hooks called, or it is a single step. -/
theorem act_or_round (s : Stock) (haction : action.isPlain) :
    (∃ s' deeds, s.act action = some (s', deeds)) ∨ ∃ point, action.round? = some point := by
  cases action with
  | register | clear | hooks | inScope => exact .inl ⟨_, _, rfl⟩
  | trigger point | fire point => exact .inr ⟨point, rfl⟩
  | yield | fail | sync | scope | rescue | thread | join | cancel => exact nomatch haction

end Stock

/-! ### One outcome -/

mutual

/-- A script does to a stock one thing only. -/
theorem Carries.unique {script : List Action} {s s' : Stock} {deeds : List Deed} :
    Carries script s deeds s' → ∀ {others : List Deed} {t : Stock}, Carries script s others t →
      others = deeds ∧ t = s'
  | .nil _, _, _, h => by
    cases h
    exact ⟨rfl, rfl⟩
  | .act hact hrest, _, _, h => by
    -- what is known of the parts is taken first, as the cases make one script of two
    have ihrest := @Carries.unique _ _ _ _ hrest
    cases h with
    | act hact' hrest' =>
      obtain ⟨rfl, rfl⟩ := Prod.mk.inj (Option.some.inj (hact.symm.trans hact'))
      obtain ⟨rfl, rfl⟩ := ihrest hrest'
      exact ⟨rfl, rfl⟩
    -- no action is a single step and has hooks called
    | round haction => exact nomatch hact.symm.trans (Stock.act_of_round haction _)
  | .round haction hhooks hvisits hrest, _, _, h => by
    have ihvisits := @Visits.unique _ _ _ _ hvisits
    have ihrest := @Carries.unique _ _ _ _ hrest
    cases h with
    | act hact => exact nomatch hact.symm.trans (Stock.act_of_round haction _)
    | round haction' hhooks' hvisits' hrest' =>
      obtain rfl := Option.some.inj (haction.symm.trans haction')
      obtain ⟨rfl, rfl⟩ := ihvisits (hhooks.trans hhooks'.symm) hvisits'
      obtain ⟨rfl, rfl⟩ := ihrest hrest'
      exact ⟨rfl, rfl⟩

/-- Visits of the same hooks do one thing only. -/
theorem Visits.unique {point : Point} {visits : List Visit} {s s' : Stock} :
    Visits point s visits s' → ∀ {others : List Visit} {t : Stock},
      visits.map Visit.hook = others.map Visit.hook → Visits point s others t →
        others = visits ∧ t = s'
  | .nil _ _, _, _, hhooks, h => by
    cases h with
    | nil => exact ⟨rfl, rfl⟩
    | cons => exact nomatch hhooks
  | .cons hcall hrest, _, _, hhooks, h => by
    have ihcall := @Carries.unique _ _ _ _ hcall
    have ihrest := @Visits.unique _ _ _ _ hrest
    cases h with
    | nil => exact nomatch hhooks
    | cons hcall' hrest' =>
      obtain ⟨rfl, htail⟩ := List.cons.inj hhooks
      obtain ⟨rfl, rfl⟩ := ihcall hcall'
      obtain ⟨rfl, rfl⟩ := ihrest htail hrest'
      exact ⟨rfl, rfl⟩

end

end GlobalTransaction.Lifecycle
