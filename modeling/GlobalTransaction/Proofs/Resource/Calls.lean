import GlobalTransaction.Resource.Keeper

/-!
# What requests to keepers change

A request to hold or to release a resource is refused, and then changes nothing, or it is
effective. An effective request changes what is kept for its own key and the flag of its own
resource, and nothing else that keepers decide by. No other command changes what is kept, and
only a command that sets a flag from outside changes a flag.

## Main definitions

* `Depot.Call` — an effective request
* `Depot.Permits` — an effective request contradicts nothing that is kept
* `Depot.Carried` — what a depot is like behind an effective request
* `Depot.Keyed` — no key of a keeper comes twice

## Main results

* `Depot.hold_refused`, `Depot.release_refused` — a contradiction changes nothing
* `Depot.hold_isOk_iff`, `Depot.release_isOk_iff` — which requests are effective
* `Depot.step_cases` — what a command changes
* `Depot.state_step_of_isRefusal` — a refused command changes nothing
* `Depot.Keyed.step` — no command gives a key a second resource
-/

set_option autoImplicit false

namespace GlobalTransaction.Resource

variable {R : Type} {n : Nat}

namespace Depot

/-- An effective request to a keeper. -/
structure Call (R : Type) (n : Nat) where
  operation : Operation
  keeper : Fin n
  key : String
  resource : R
deriving DecidableEq

/-- The effective request that a command was, according to its answer. -/
def Call.ofReply? : Command R n × Answer R → Option (Call R n)
  | (.hold k key resource, .held (.ok _)) => some ⟨.hold, k, key, resource⟩
  | (.release k key resource, .released (.ok _)) => some ⟨.release, k, key, resource⟩
  | _ => none

/-- The command was refused, according to its answer. -/
def Answer.isRefusal : Answer R → Bool
  | .held (.error _) | .released (.error _) => true
  | _ => false

/-- What is kept for the key of a request once it was effective. -/
def Call.kept (call : Call R n) : Option R :=
  match call.operation with
  | .hold => some call.resource
  | .release => none

/-- The command sets or clears a flag without a keeper. -/
def Command.setsFlag : Command R n → Bool
  | .setHeld _ _ => true
  | _ => false

/-! ### The depot behind a changed keeper -/

theorem keeper_withKeeper (d : Depot R n) (k : Fin n) (keeper : Keeper R) (other : Fin n) :
    (d.withKeeper k keeper).keeper other = if other = k then keeper else d.keeper other := by
  by_cases h : other = k
  · subst h
    simp [Depot.keeper, withKeeper]
  · have hne : (k : Nat) ≠ other := fun heq => h (Fin.ext heq.symm)
    simp [Depot.keeper, withKeeper, h, Vector.getElem_set_ne, hne]

theorem lookup_withKeeper (d : Depot R n) (k : Fin n) (keeper : Keeper R) (other : Fin n)
    (key : String) :
    (d.withKeeper k keeper).lookup other key =
      if other = k then keeper.lookup key else d.lookup other key := by
  rw [Depot.lookup, keeper_withKeeper]
  split <;> rfl

/-- No key of a keeper comes twice. -/
def Keyed (d : Depot R n) : Prop := ∀ k, (d.keeper k).kept.keys.Nodup

theorem keyed_empty (infos : Vector Info n) (cache : StatusCache) :
    (empty infos cache : Depot R n).Keyed := by
  intro k
  simp [empty, Depot.keeper, Keeper.empty, Table.keys]

theorem Keyed.withKeeper {d : Depot R n} (h : d.Keyed) (k : Fin n) {keeper : Keeper R}
    (hkeeper : keeper.kept.keys.Nodup) : (d.withKeeper k keeper).Keyed := by
  intro other
  rw [keeper_withKeeper]
  split
  · exact hkeeper
  · exact h other

variable [DecidableEq R]

theorem isHeld_withKeeper (d : Depot R n) (k : Fin n) (keeper : Keeper R) (resource : R) :
    (d.withKeeper k keeper).isHeld resource = d.isHeld resource := rfl

/-! ### Requests to hold and to release -/

section Requests

variable {describe : Depot R n → R → String} {d : Depot R n} {k : Fin n} {key : String}
variable {resource : R}

/-- Holding once more what is kept sets the flag again. -/
theorem hold_repeated (h : d.lookup k key = some resource) :
    d.hold describe k key resource =
      { state := d.setHeld resource true, answer := .ok (some resource) } := by
  rw [hold, h]
  exact if_pos rfl

theorem hold_free (h : d.lookup k key = none) (hfree : d.isHeld resource = false) :
    d.hold describe k key resource =
      { state := (d.withKeeper k ((d.keeper k).insert key resource)).setHeld resource true
        answer := .ok none
        journal := [.counted .hold, .logged .resourceHeld] } := by
  rw [hold, h]
  simp [hfree]

/-- A request to hold is refused if the key has another resource, or if it has none and the
resource is held by somebody. -/
theorem hold_refused (hkept : d.lookup k key ≠ some resource)
    (hheld : d.lookup k key = none → d.isHeld resource = true) :
    d.hold describe k key resource =
      d.refuse describe .hold key (d.lookup k key) resource := by
  rw [hold]
  cases h : d.lookup k key with
  | none => simp [hheld h]
  | some kept =>
    have hne : kept ≠ resource := fun heq => hkept (heq ▸ h)
    simp [hne]

theorem release_kept (h : d.lookup k key = some resource) :
    d.release describe k key resource =
      { state := (d.withKeeper k ((d.keeper k).erase key)).setHeld resource false
        answer := .ok resource
        journal := [.counted .release, .logged .resourceReleased] } := by
  rw [release, h]
  exact if_pos rfl

/-- A request to release what the key does not have is refused. -/
theorem release_refused (h : d.lookup k key ≠ some resource) :
    d.release describe k key resource =
      d.refuse describe .release key (d.lookup k key) resource := by
  rw [release]
  cases hkept : d.lookup k key with
  | none => rfl
  | some kept =>
    have hne : kept ≠ resource := fun heq => h (heq ▸ hkept)
    simp [hne]

end Requests

/-- An effective request contradicts nothing that is kept: what is held once more or released is
kept for the key, and what is held for the first time finds a free key and is held by nobody. -/
def Permits (d : Depot R n) (call : Call R n) : Prop :=
  match call.operation with
  | .hold =>
    d.lookup call.keeper call.key = some call.resource ∨
      d.lookup call.keeper call.key = none ∧ d.isHeld call.resource = false
  | .release => d.lookup call.keeper call.key = some call.resource

/-- What a depot is like behind an effective request: its key has the resource or is free, and the
flag of the resource says which. Other keys and other flags are as before. -/
structure Carried (d : Depot R n) (call : Call R n) (behind : Depot R n) : Prop where
  lookup_eq : ∀ k key, behind.lookup k key =
    if k = call.keeper ∧ key = call.key then call.kept else d.lookup k key
  isHeld_eq : ∀ resource, behind.isHeld resource =
    if resource = call.resource then call.kept.isSome else d.isHeld resource

section Effects

variable {describe : Depot R n → R → String} {d : Depot R n} {k : Fin n} {key : String}
variable {resource : R}

theorem carried_repeated (h : d.lookup k key = some resource) :
    d.Carried ⟨.hold, k, key, resource⟩ (d.setHeld resource true) where
  lookup_eq other otherKey := by
    rw [lookup_setHeld]
    split
    · next heq =>
      obtain ⟨rfl, rfl⟩ := heq
      exact h
    · rfl
  isHeld_eq other := isHeld_setHeld d resource true other

theorem carried_free : d.Carried ⟨.hold, k, key, resource⟩
    ((d.withKeeper k ((d.keeper k).insert key resource)).setHeld resource true) where
  lookup_eq other otherKey := by
    rw [lookup_setHeld, lookup_withKeeper, Keeper.lookup_insert]
    by_cases hk : other = k
    · subst hk
      simp [Call.kept, Depot.lookup]
    · simp [hk]
  isHeld_eq other := by
    rw [isHeld_setHeld, isHeld_withKeeper]
    rfl

theorem carried_released : d.Carried ⟨.release, k, key, resource⟩
    ((d.withKeeper k ((d.keeper k).erase key)).setHeld resource false) where
  lookup_eq other otherKey := by
    rw [lookup_setHeld, lookup_withKeeper, Keeper.lookup_erase]
    by_cases hk : other = k
    · subst hk
      simp [Call.kept, Depot.lookup]
    · simp [hk]
  isHeld_eq other := by
    rw [isHeld_setHeld, isHeld_withKeeper]
    rfl

/-- A request to hold is effective where it contradicts nothing, and it is refused elsewhere. -/
theorem hold_cases (describe : Depot R n → R → String) (d : Depot R n) (k : Fin n) (key : String)
    (resource : R) :
    (∃ previous, (d.hold describe k key resource).answer = .ok previous ∧
      d.Permits ⟨.hold, k, key, resource⟩ ∧
      d.Carried ⟨.hold, k, key, resource⟩ (d.hold describe k key resource).state) ∨
    ((∃ report, (d.hold describe k key resource).answer = .error report) ∧
      ¬ d.Permits ⟨.hold, k, key, resource⟩ ∧ (d.hold describe k key resource).state = d) := by
  by_cases hkept : d.lookup k key = some resource
  · rw [hold_repeated hkept]
    exact .inl ⟨_, rfl, .inl hkept, carried_repeated hkept⟩
  -- without the resource at the key, the flag is read only if the key is free
  · by_cases hfree : d.lookup k key = none ∧ d.isHeld resource = false
    · rw [hold_free hfree.1 hfree.2]
      exact .inl ⟨_, rfl, .inr hfree, carried_free⟩
    · have hheld : d.lookup k key = none → d.isHeld resource = true := by
        intro hnone
        rw [← Bool.not_eq_false]
        exact fun hflag => hfree ⟨hnone, hflag⟩
      rw [hold_refused hkept hheld]
      exact .inr ⟨⟨_, rfl⟩, not_or.2 ⟨hkept, hfree⟩, rfl⟩

/-- A request to release is effective where it contradicts nothing, and it is refused elsewhere. -/
theorem release_cases (describe : Depot R n → R → String) (d : Depot R n) (k : Fin n)
    (key : String) (resource : R) :
    (∃ released, (d.release describe k key resource).answer = .ok released ∧
      d.Permits ⟨.release, k, key, resource⟩ ∧
      d.Carried ⟨.release, k, key, resource⟩ (d.release describe k key resource).state) ∨
    ((∃ report, (d.release describe k key resource).answer = .error report) ∧
      ¬ d.Permits ⟨.release, k, key, resource⟩ ∧
      (d.release describe k key resource).state = d) := by
  by_cases hkept : d.lookup k key = some resource
  · rw [release_kept hkept]
    exact .inl ⟨_, rfl, hkept, carried_released⟩
  · rw [release_refused hkept]
    exact .inr ⟨⟨_, rfl⟩, hkept, rfl⟩

theorem hold_isOk_iff : (∃ previous, (d.hold describe k key resource).answer = .ok previous) ↔
    d.Permits ⟨.hold, k, key, resource⟩ := by
  rcases hold_cases describe d k key resource with ⟨_, hok, hp, -⟩ | ⟨⟨_, herror⟩, hp, -⟩
  · exact iff_of_true ⟨_, hok⟩ hp
  · exact iff_of_false (by rw [herror]; exact fun ⟨_, h⟩ => nomatch h) hp

theorem release_isOk_iff :
    (∃ released, (d.release describe k key resource).answer = .ok released) ↔
      d.Permits ⟨.release, k, key, resource⟩ := by
  rcases release_cases describe d k key resource with ⟨_, hok, hp, -⟩ | ⟨⟨_, herror⟩, hp, -⟩
  · exact iff_of_true ⟨_, hok⟩ hp
  · exact iff_of_false (by rw [herror]; exact fun ⟨_, h⟩ => nomatch h) hp

/-- A hold that is effective answers with the resource if it was kept already. -/
theorem hold_answer_eq {describe : Depot R n → R → String} {k : Fin n} {key : String}
    {resource : R} {previous : Option R}
    (h : (d.hold describe k key resource).answer = .ok previous) :
    previous = if d.lookup k key = some resource then some resource else none := by
  by_cases hkept : d.lookup k key = some resource
  · rw [hold_repeated hkept] at h
    rw [if_pos hkept]
    exact (Except.ok.inj h).symm
  · rcases hold_isOk_iff.1 ⟨previous, h⟩ with hsame | ⟨hnone, hfree⟩
    · exact absurd hsame hkept
    · rw [hold_free hnone hfree] at h
      rw [if_neg hkept]
      exact (Except.ok.inj h).symm

end Effects

/-! ### Commands -/

/-- A command that sets no flag from outside leaves what is kept and the flags as they were, or it
was an effective request. -/
theorem step_cases (describe : Depot R n → R → String) (d : Depot R n) (command : Command R n)
    (hflag : command.setsFlag = false) :
    (Call.ofReply? (command, (step describe d command).answer) = none ∧
      (step describe d command).state.lookup = d.lookup ∧
      (step describe d command).state.isHeld = d.isHeld) ∨
    ∃ call, Call.ofReply? (command, (step describe d command).answer) = some call ∧
      d.Permits call ∧ d.Carried call (step describe d command).state := by
  cases command with
  | hold k key resource =>
    rcases hold_cases describe d k key resource with ⟨_, hok, hrest⟩ | ⟨⟨_, herror⟩, -, hsame⟩
    · refine .inr ⟨_, ?_, hrest⟩
      rw [step, Outcome.map, hok]
      rfl
    · refine .inl ⟨?_, ?_⟩
      · rw [step, Outcome.map, herror]
        rfl
      · rw [step, Outcome.map, hsame]
        exact ⟨rfl, rfl⟩
  | release k key resource =>
    rcases release_cases describe d k key resource with ⟨_, hok, hrest⟩ | ⟨⟨_, herror⟩, -, hsame⟩
    · refine .inr ⟨_, ?_, hrest⟩
      rw [step, Outcome.map, hok]
      rfl
    · refine .inl ⟨?_, ?_⟩
      · rw [step, Outcome.map, herror]
        rfl
      · rw [step, Outcome.map, hsame]
        exact ⟨rfl, rfl⟩
  | lookup k key => exact .inl ⟨rfl, rfl, rfl⟩
  | setHeld resource held => exact absurd hflag (by simp [Command.setsFlag])
  | setShouldBeHeld k shouldBeHeld =>
    -- the keeper changes, but not what it keeps
    refine .inl ⟨rfl, ?_, rfl⟩
    funext other key
    rw [step, lookup_withKeeper]
    split
    · next heq =>
      subst heq
      rfl
    · rfl
  | setStatus k id status => exact .inl ⟨rfl, rfl, rfl⟩
  | getStatus k id => exact .inl ⟨rfl, rfl, rfl⟩
  | clearStatus k id =>
    rw [step]
    split <;> exact .inl ⟨rfl, rfl, rfl⟩
  | cache command => exact .inl ⟨rfl, rfl, rfl⟩

/-- A command that was refused has changed nothing. -/
theorem state_step_of_isRefusal {describe : Depot R n → R → String} {d : Depot R n}
    {command : Command R n}
    (h : (step describe d command).answer.isRefusal = true) :
    (step describe d command).state = d := by
  cases command with
  | hold k key resource =>
    rcases hold_cases describe d k key resource with ⟨_, hok, -⟩ | ⟨-, -, hsame⟩
    · simp [step, Outcome.map, hok, Answer.isRefusal] at h
    · exact hsame
  | release k key resource =>
    rcases release_cases describe d k key resource with ⟨_, hok, -⟩ | ⟨-, -, hsame⟩
    · simp [step, Outcome.map, hok, Answer.isRefusal] at h
    · exact hsame
  | clearStatus k id =>
    -- a blank identifier is ignored, not refused
    have hanswer : (step describe d (.clearStatus k id)).answer.isRefusal = false := by
      rw [step]
      split <;> rfl
    exact absurd h (by simp [hanswer])
  | lookup | setHeld | setShouldBeHeld | setStatus | getStatus | cache => exact nomatch h

/-! ### The keys of a keeper -/

theorem Keyed.hold {d : Depot R n} (h : d.Keyed) (describe : Depot R n → R → String) (k : Fin n)
    (key : String) (resource : R) : (d.hold describe k key resource).state.Keyed := by
  cases hlookup : d.lookup k key with
  | some kept =>
    by_cases heq : kept = resource
    · rw [hold_repeated (heq ▸ hlookup)]
      exact h
    · rw [hold_refused (by simp [hlookup, heq]) (by simp [hlookup])]
      exact h
  | none =>
    cases hheld : d.isHeld resource with
    | true =>
      rw [hold_refused (by simp [hlookup]) fun _ => hheld]
      exact h
    | false =>
      rw [hold_free hlookup hheld]
      -- the only case with a new entry, and its key had none
      refine h.withKeeper k ?_
      exact List.nodup_cons.2 ⟨Table.lookup_eq_none_iff.1 hlookup, h k⟩

theorem Keyed.release {d : Depot R n} (h : d.Keyed) (describe : Depot R n → R → String)
    (k : Fin n) (key : String) (resource : R) :
    (d.release describe k key resource).state.Keyed := by
  by_cases hkept : d.lookup k key = some resource
  · rw [release_kept hkept]
    exact h.withKeeper k (Table.nodup_keys_erase (h k) key)
  · rw [release_refused hkept]
    exact h

/-- No command gives a key a second resource. -/
theorem Keyed.step {d : Depot R n} (h : d.Keyed) (describe : Depot R n → R → String)
    (command : Command R n) : (step describe d command).state.Keyed := by
  cases command with
  | hold k key resource => exact h.hold describe k key resource
  | release k key resource => exact h.release describe k key resource
  | setShouldBeHeld k shouldBeHeld => exact h.withKeeper k (h k)
  | clearStatus k id =>
    rw [Depot.step]
    split <;> exact h
  | lookup | setHeld | setStatus | getStatus | cache => exact h

end Depot

end GlobalTransaction.Resource
