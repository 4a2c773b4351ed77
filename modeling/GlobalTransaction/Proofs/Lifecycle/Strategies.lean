import GlobalTransaction.Lifecycle.Bench
import GlobalTransaction.Proofs.Lifecycle.Deeds

/-!
# Two ways to keep a list of hooks

The hooks of an attempt can be kept in a registry that is passed along, or in the list of a scope.
As long as the hooks themselves leave both alone, it makes no difference which way is taken: the
same operations get the same answers, read the same hooks and make the same calls, and what they get
depends on nothing but the operations before.

## Main definitions

* `Lifecycle.Operation` — what is done with a list of hooks, wherever it is kept
* `Lifecycle.Account`, `Lifecycle.account` — what operations get, told from the operations alone
* `Progress.Matches` — two pieces of work come out in the same way
* `Work.Aloof` — work that does not touch the innermost scope and does not depend on it
* `Work.inOrder` — commands that follow each other, the state being handed on
* `Lifecycle.InStep`, `Operation.Got` — both lists in step, and an operation that leaves them so

## Main results

* `matches_callEach` — a round of calls of aloof hooks, made from two places
* `InStep.register`, `InStep.clear`, `InStep.snapshot`, `InStep.trigger` — one operation, with both
  ways side by side
* `strategies_agree` — both ways agree with each other and with the account
-/

set_option autoImplicit false

namespace GlobalTransaction.Lifecycle

/-! ### Operations and what they get -/

/-- What is done with a list of hooks. -/
inductive Operation
  /-- A hook is registered, or none is supplied. -/
  | register (hook : Option Hook)
  | clear
  /-- The hooks are read. -/
  | snapshot
  | trigger (point : Point)

namespace Operation

/-- The supply of a registration. -/
def supply : Option Hook → Supply
  | none => .nothing
  | some hook => .fresh hook

/-- The operation on the list of the innermost scope. -/
def action : Operation → Action
  | register hook => .register (supply hook)
  | clear => .clear
  | snapshot => .hooks
  | trigger point => .trigger point

/-- The operation on a registry. -/
def command (number : Nat) : Operation → Bench.Command
  | register hook => .register number (supply hook)
  | clear => .clear number
  | snapshot => .take number
  | trigger point => .trigger number point

/-- The result of a registration. -/
def result : Option Hook → Except Error Unit
  | none => .error .missingHook
  | some _ => .ok ()

/-- What an operation does to the list. -/
def deed? : Operation → Option Deed
  | register hook => some (.registered hook (result hook))
  | clear => some .cleared
  | snapshot | trigger _ => none

/-- The answer to an operation on a list with these hooks. -/
def reply (hooks : List Hook) : Operation → Reply
  | register hook => .registered (result hook)
  | clear | trigger _ => .done
  | snapshot => .count hooks.length

/-- What an operation reads out of a list with these hooks. -/
def read (hooks : List Hook) : Operation → List (List Hook)
  | snapshot => [hooks]
  | register _ | clear | trigger _ => []

/-- The calls that an operation on a list with these hooks makes. -/
def calls (hooks : List Hook) : Operation → List (Hook × Point)
  | trigger point => hooks.map (·, point)
  | register _ | clear | snapshot => []

end Operation

/-- What operations get. -/
structure Account where
  replies : List Reply
  /-- The hooks that were read, at each reading. -/
  snapshots : List (List Hook)
  calls : List (Hook × Point)

/-- What operations get behind some deeds. -/
def account (past : List Deed) : List Operation → Account
  | [] => ⟨[], [], []⟩
  | op :: ops =>
    let rest := account (past ++ op.deed?.toList) ops
    ⟨op.reply (standing past) :: rest.replies, op.read (standing past) ++ rest.snapshots,
      op.calls (standing past) ++ rest.calls⟩

/-! ### Work that comes out in the same way -/

section Matches

variable {α β γ δ : Type}

namespace Progress

/-- Two pieces of work both end, with ends that are related, or they both fail, with worlds that are
related, or both go beyond the limit, if that may happen. Neither waits. -/
inductive Matches (ends : World → α → World → β → Prop) (failures : World → World → Prop)
    (mayOverrun : Prop) : Progress α → Progress β → Prop
  | done {w : World} {a : α} {w' : World} {b : β} (h : ends w a w' b) :
      Matches ends failures mayOverrun (done w a) (done w' b)
  | failed {w w' : World} (h : failures w w') :
      Matches ends failures mayOverrun (failed w) (failed w')
  | overrun (h : mayOverrun) : Matches ends failures mayOverrun overrun overrun

variable {ends : World → α → World → β → Prop} {failures : World → World → Prop} {mayOverrun : Prop}
variable {p : Progress α} {q : Progress β}

theorem Matches.mono (h : p.Matches ends failures mayOverrun q)
    {ends' : World → α → World → β → Prop} {failures' : World → World → Prop}
    (hends : ∀ w a w' b, ends w a w' b → ends' w a w' b)
    (hfailures : ∀ w w', failures w w' → failures' w w') :
    p.Matches ends' failures' mayOverrun q := by
  cases h with
  | done h => exact .done (hends _ _ _ _ h)
  | failed h => exact .failed (hfailures _ _ h)
  | overrun h => exact .overrun h

theorem Matches.andThen (h : p.Matches ends failures mayOverrun q) {next : α → Work γ}
    {next' : β → Work δ} {ends' : World → γ → World → δ → Prop}
    (hnext : ∀ w a w' b, ends w a w' b →
      (next a w).Matches ends' failures mayOverrun (next' b w')) :
    (p.andThen next).Matches ends' failures mayOverrun (q.andThen next') := by
  cases h with
  | done h => exact hnext _ _ _ _ h
  | failed h => exact .failed h
  | overrun h => exact .overrun h

/-- Where nothing may go wrong, both pieces of work end. -/
theorem Matches.exists_done (h : p.Matches ends failures mayOverrun q)
    (hfailures : ∀ w w', ¬failures w w') (hoverrun : ¬mayOverrun) :
    ∃ w a w' b, p = .done w a ∧ q = .done w' b ∧ ends w a w' b := by
  cases h with
  | done h => exact ⟨_, _, _, _, rfl, rfl, h⟩
  | failed h => exact absurd h (hfailures _ _)
  | overrun h => exact absurd h hoverrun

end Progress

end Matches

/-! ### Calls of hooks from two places -/

/-- The call that a deed is. -/
def Deed.call? : Deed → Option (Hook × Point)
  | called hook point => some (hook, point)
  | registered _ _ | cleared | found _ => none

/-- The calls of hooks that have been made at a place. -/
def Place.called (place : Place) : List (Hook × Point) := place.deeds.filterMap Deed.call?

namespace World

theorem called_eq_of_deeds {w v : World} (deed : Deed) (h : v.deeds = w.deeds ++ [deed]) :
    v.called = w.called ++ deed.call?.toList := by
  rw [Place.called, h, List.filterMap_append, Place.called]
  cases hcall : deed.call? <;> simp [hcall]

/-- Two worlds with the same named hooks and the same marks of calls. -/
structure Alike (w w' : World) : Prop where
  named_eq : w.named = w'.named
  calls_eq : w.calls = w'.calls

/-- Two worlds side by side, of which the first had seen some calls at its place beforehand. -/
structure Beside (before : List (Hook × Point)) (w w' : World) : Prop where
  alike : w.Alike w'
  called_eq : w.called = before ++ w'.called

/-- What is done in the second world, other than a call, leaves the calls as they are. -/
theorem Beside.of_quiet {before : List (Hook × Point)} {w w' : World} (h : w.Beside before w')
    (v v' : World) (deed : Deed) (halike : v.Alike v') (hplace : v.toPlace = w.toPlace)
    (hdeeds : v'.deeds = w'.deeds ++ [deed]) (hcall : deed.call? = none) :
    v.Beside before v' ∧ v'.called = w'.called := by
  have hsame : v'.called = w'.called := by
    rw [called_eq_of_deeds deed hdeeds, hcall, Option.toList_none, List.append_nil]
  exact ⟨⟨halike, by rw [hplace, hsame, h.called_eq]⟩, hsame⟩

end World

variable {call : Caller} {mayFail : Prop} {before : List (Hook × Point)}

/-- Work that leaves the place as it is, and does the same at every place. It may be known that it
comes to an end. -/
def Work.Aloof (mayFail : Prop) (work : Work Unit) : Prop :=
  ∀ w w' : World, w.Alike w' →
    (work w).Matches
      (fun v _ v' _ => v.Alike v' ∧ v.toPlace = w.toPlace ∧ v'.toPlace = w'.toPlace)
      (fun v v' => mayFail ∧ v.Alike v' ∧ v.toPlace = w.toPlace ∧ v'.toPlace = w'.toPlace)
      mayFail (work w')

/-- A hook without a script only leaves its mark, wherever it is called. -/
theorem aloof_call_of_reaction {hook : Hook} {point : Point} (h : hook.reaction point = [])
    (depth : Nat) : (Hook.call (depth + 1) hook point).Aloof False := by
  intro w w' halike
  simp only [Hook.call, h]
  cases hook.mark point with
  | none => exact .done ⟨halike, rfl, rfl⟩
  | some mark =>
    exact .done ⟨⟨halike.named_eq, congrArg (· ++ [mark]) halike.calls_eq⟩, rfl, rfl⟩

/-- A round of calls of aloof hooks goes the same way from two places, and leaves both lists as they
are. -/
theorem matches_callEach {hooks : List Hook} {point : Point}
    (haloof : ∀ hook ∈ hooks, (call hook point).Aloof mayFail) {w w' : World}
    (h : w.Beside before w') :
    (callEach call point hooks w).Matches
      (fun v _ v' _ => v.Beside before v' ∧ v.scope = w.scope ∧ v'.scope = w'.scope ∧
        v'.called = w'.called ++ hooks.map (·, point))
      (fun v v' => mayFail ∧ v.Beside before v') mayFail (callEach call point hooks w') := by
  induction hooks generalizing w w' with
  | nil => exact .done ⟨h, rfl, rfl, (List.append_nil _).symm⟩
  | cons hook hooks ih =>
    obtain ⟨hhook, hhooks⟩ := List.forall_mem_cons.1 haloof
    have hnote (u : World) : (u.note (.called hook point)).called = u.called ++ [(hook, point)] :=
      World.called_eq_of_deeds (.called hook point) rfl
    -- the call leaves both places with nothing but the note about it
    have hkept : ∀ v v' : World, v.Alike v' ∧ v.toPlace = (w.note (.called hook point)).toPlace ∧
        v'.toPlace = (w'.note (.called hook point)).toPlace →
        v.Beside before v' ∧ v.scope = w.scope ∧ v'.scope = w'.scope ∧
          v'.called = w'.called ++ [(hook, point)] := by
      rintro v v' ⟨halike, hplace, hplace'⟩
      refine ⟨⟨halike, ?_⟩, by rw [hplace]; rfl, by rw [hplace']; rfl, by rw [hplace', hnote]⟩
      rw [hplace, hplace', hnote, hnote, h.called_eq, List.append_assoc]
    have hcall := hhook (w.note (.called hook point)) (w'.note (.called hook point))
      ⟨h.alike.named_eq, h.alike.calls_eq⟩
    refine (hcall.mono (fun v _ v' _ => hkept v v')
      fun v v' hv => ⟨hv.1, (hkept v v' hv.2).1⟩).andThen ?_
    rintro v ⟨⟩ v' ⟨⟩ ⟨hbeside, hscope, hscope', hmade⟩
    refine (ih hhooks hbeside).mono ?_ fun _ _ => id
    rintro u ⟨⟩ u' ⟨⟩ ⟨hend, hsame, hsame', hround⟩
    refine ⟨hend, hsame.trans hscope, hsame'.trans hscope', ?_⟩
    rw [hround, hmade, List.append_assoc, List.map_cons, List.singleton_append]

/-! ### Both ways side by side -/

/-- Commands that follow each other, the state being handed on, with the answer of each. -/
def Work.inOrder {σ κ α : Type} (step : σ → κ → Work (σ × α)) : σ → List κ → Work (σ × List α)
  | s, [] => .answer (s, [])
  | s, command :: commands =>
    (step s command).andThen fun here =>
      (inOrder step here.1 commands).map fun rest => (rest.1, here.2 :: rest.2)

/-- The operation on the list of the innermost scope. What is read out of the list joins what was
read before. -/
def Operation.scoped (call : Caller) (taken : List (List Hook)) (op : Operation) :
    Work (List (List Hook) × Reply) :=
  fun w => ((op.action.work call).map fun reply => (taken ++ op.read w.scope.hooks, reply)) w

section Operations

variable {number : Nat} {past : List Deed} {w w' : World} {b : Bench}

/-- A registry has the hooks that are to be there, and a list is attached as long as there are any. -/
structure Registry.Keeps (r : Registry Hook) (past : List Deed) : Prop where
  hooks_eq : r.hooks = standing past
  attached_iff : r.isAttached = true ↔ r.hooks ≠ []

namespace Registry

theorem keeps_empty : (empty : Registry Hook).Keeps [] := ⟨rfl, by decide⟩

theorem keeps_clear (r : Registry Hook) (past : List Deed) : r.clear.Keeps (past ++ [.cleared]) :=
  ⟨(standing_append_cleared past).symm, iff_of_false Bool.false_ne_true fun h => h rfl⟩

/-- A registration without a hook leaves the list as it is, attached or not. -/
theorem Keeps.register {r : Registry Hook} (h : r.Keeps past) (hook : Option Hook) :
    (r.register hook).state.Keeps (past ++ [.registered hook (Operation.result hook)]) := by
  have hstanding : standing (past ++ [.registered hook (Operation.result hook)]) =
      standing past ++ hook.toList := by
    cases hook <;> exact standing_append rfl past
  cases hook with
  | none =>
    refine ⟨?_, h.attached_iff⟩
    rw [register_none_state, h.hooks_eq, hstanding]
    exact (List.append_nil _).symm
  | some hook =>
    constructor
    · rw [hooks_register_some, h.hooks_eq, hstanding]
      rfl
    · rw [hooks_register_some]
      exact iff_of_true rfl (List.append_ne_nil_of_right_ne_nil _ (List.cons_ne_nil _ _))

end Registry

/-- A registry and the list of a scope side by side. They are the same, and have the hooks that are
to be there. -/
structure InStep (number : Nat) (before : List (Hook × Point)) (past : List Deed) (w : World)
    (b : Bench) (w' : World) : Prop where
  beside : w.Beside before w'
  number_lt : number < b.registries.length
  scope_eq : w'.scope = some (b.registry number)
  keeps : (b.registry number).Keeps past

theorem Bench.registry_withRegistry (h : number < b.registries.length) (r : Registry Hook) :
    (b.withRegistry number r).registry number = r := by
  simp [registry, withRegistry, h]

/-- Both lists are replaced by the same one. -/
theorem InStep.withRegistry (h : InStep number before past w b w') {r : Registry Hook}
    {past' : List Deed} (hr : r.Keeps past') {v v' : World} (hbeside : v.Beside before v')
    (hscope : v'.scope = some r) : InStep number before past' v (b.withRegistry number r) v' := by
  have hregistry := Bench.registry_withRegistry h.number_lt r
  refine ⟨hbeside, ?_, ?_, ?_⟩
  · rw [Bench.withRegistry, List.length_set]
    exact h.number_lt
  · rw [hregistry, hscope]
  · rw [hregistry]
    exact hr

/-- A registration in a scope does to its list what it does to a registry. -/
theorem World.register_of_scope {r : Registry Hook} (h : w.scope = some r) (hook : Option Hook) :
    ∃ v : World, w.register (Operation.supply hook) = (v, Operation.result hook) ∧
      (w.supplied (Operation.supply hook)).1.Alike v ∧ v.scope = some (r.register hook).state ∧
      v.deeds = w.deeds ++ [.registered hook (Operation.result hook)] := by
  cases hook with
  | none =>
    simp only [World.register, Operation.supply, World.supplied, h]
    exact ⟨_, rfl, ⟨rfl, rfl⟩, rfl, rfl⟩
  | some hook =>
    simp only [World.register, Operation.supply, World.supplied, h]
    exact ⟨_, rfl, ⟨rfl, rfl⟩, rfl, rfl⟩

theorem Bench.step_register (call : Caller) (b : Bench) (number : Nat) (hook : Option Hook)
    (w : World) :
    b.step call (.register number (Operation.supply hook)) w =
      .done ((w.supplied (Operation.supply hook)).1.report
          ((b.registry number).register hook).journal)
        (b.withRegistry number ((b.registry number).register hook).state,
          .registered (Operation.result hook)) := by
  cases hook <;> rfl

/-- An operation has got on both sides what it is to get behind some deeds, and the lists are in
step again. -/
structure Operation.Got (op : Operation) (number : Nat) (before : List (Hook × Point))
    (past : List Deed) (b : Bench) (taken : List (List Hook)) (w' : World) (v : World)
    (there : Bench × Reply) (v' : World) (here : List (List Hook) × Reply) : Prop where
  inStep : InStep number before (past ++ op.deed?.toList) v there.1 v'
  reply_eq : there.2 = op.reply (standing past)
  reply_eq' : here.2 = op.reply (standing past)
  taken_eq : there.1.taken = b.taken ++ op.read (standing past)
  taken_eq' : here.1 = taken ++ op.read (standing past)
  called_eq : v'.called = w'.called ++ op.calls (standing past)

namespace InStep

/-- The list of the scope has the hooks that are to be there. -/
theorem hooks_eq (h : InStep number before past w b w') : w'.scope.hooks = standing past := by
  rw [h.scope_eq, Scope.hooks_some, h.keeps.hooks_eq]

/-- A supplied hook is remembered under its name on both sides. -/
theorem supplied (h : InStep number before past w b w') (hook : Option Hook) :
    (w.supplied (Operation.supply hook)).1.Alike (w'.supplied (Operation.supply hook)).1 ∧
      (w.supplied (Operation.supply hook)).1.toPlace = w.toPlace := by
  obtain ⟨hnamed, hcalls⟩ := h.beside.alike
  cases hook with
  | none => exact ⟨⟨hnamed, hcalls⟩, rfl⟩
  | some hook => exact ⟨⟨congrArg (Table.insert · hook.name hook) hnamed, hcalls⟩, rfl⟩

theorem register (h : InStep number before past w b w') (hook : Option Hook)
    (taken : List (List Hook)) :
    (b.step call ((Operation.register hook).command number) w).Matches
      ((Operation.register hook).Got number before past b taken w')
      (fun v v' => mayFail ∧ v.Beside before v') mayFail
      ((Operation.register hook).scoped call taken w') := by
  obtain ⟨v', hregister, hregistered, hscope, hdeeds⟩ := World.register_of_scope h.scope_eq hook
  obtain ⟨hsupplied, hplace⟩ := h.supplied hook
  have halike : ((w.supplied (Operation.supply hook)).1.report
      ((b.registry number).register hook).journal).Alike v' :=
    ⟨hsupplied.named_eq.trans hregistered.named_eq, hsupplied.calls_eq.trans hregistered.calls_eq⟩
  obtain ⟨hbeside, hsame⟩ := h.beside.of_quiet _ v' _ halike hplace hdeeds rfl
  rw [Operation.command, Bench.step_register]
  simp only [Operation.scoped, Operation.action, Work.map, Work.andThen, Action.work, hregister]
  exact .done ⟨h.withRegistry (h.keeps.register hook) hbeside hscope, rfl, rfl,
    (List.append_nil _).symm, rfl, hsame.trans (List.append_nil _).symm⟩

theorem clear (h : InStep number before past w b w') (taken : List (List Hook)) :
    (b.step call (Operation.clear.command number) w).Matches
      (Operation.clear.Got number before past b taken w')
      (fun v v' => mayFail ∧ v.Beside before v') mayFail
      (Operation.clear.scoped call taken w') := by
  obtain ⟨hnamed, hcalls⟩ := h.beside.alike
  obtain ⟨hbeside, hsame⟩ := h.beside.of_quiet w w'.clear .cleared ⟨hnamed, hcalls⟩ rfl rfl rfl
  have hcleared := h.withRegistry (Registry.keeps_clear _ past) hbeside
    (congrArg Scope.clear h.scope_eq)
  exact .done ⟨hcleared, rfl, rfl, (List.append_nil _).symm, rfl,
    hsame.trans (List.append_nil _).symm⟩

/-- Reading leaves the list as it is, and the calls that were made. -/
theorem readHooks (h : InStep number before past w b w') :
    InStep number before past w b w'.readHooks ∧ w'.readHooks.called = w'.called := by
  obtain ⟨hnamed, hcalls⟩ := h.beside.alike
  obtain ⟨hbeside, hsame⟩ := h.beside.of_quiet w w'.readHooks (.found w'.scope.hooks)
    ⟨hnamed, hcalls⟩ rfl rfl rfl
  exact ⟨⟨hbeside, h.number_lt, h.scope_eq, h.keeps⟩, hsame⟩

theorem snapshot (h : InStep number before past w b w') (taken : List (List Hook)) :
    (b.step call (Operation.snapshot.command number) w).Matches
      (Operation.snapshot.Got number before past b taken w')
      (fun v v' => mayFail ∧ v.Beside before v') mayFail
      (Operation.snapshot.scoped call taken w') := by
  have hthere : (b.registry number).hooks = standing past := h.keeps.hooks_eq
  obtain ⟨hread, hsame⟩ := h.readHooks
  refine .done ⟨?_, ?_, ?_, ?_, ?_, hsame.trans (List.append_nil _).symm⟩
  · rw [Operation.deed?, Option.toList_none, List.append_nil]
    exact ⟨hread.beside, hread.number_lt, hread.scope_eq, hread.keeps⟩
  · rw [Operation.reply, hthere]
  · rw [Operation.reply, h.hooks_eq]
  · rw [Operation.read, hthere]
  · rw [h.hooks_eq]

theorem trigger (h : InStep number before past w b w') (point : Point)
    (haloof : ∀ hook ∈ standing past, (call hook point).Aloof mayFail)
    (taken : List (List Hook)) :
    (b.step call ((Operation.trigger point).command number) w).Matches
      ((Operation.trigger point).Got number before past b taken w')
      (fun v v' => mayFail ∧ v.Beside before v') mayFail
      ((Operation.trigger point).scoped call taken w') := by
  obtain ⟨⟨⟨⟨hnamed, hcalls⟩, hcalled⟩, -, -, -⟩, hsame⟩ := h.readHooks
  -- the round in the scope begins behind its line in the journal
  have hbegun : w.Beside before (w'.readHooks.report [.logged .hooksTriggered]) :=
    ⟨⟨hnamed, hcalls⟩, hcalled⟩
  simp only [Operation.command, Bench.step, Operation.scoped, Operation.action, Work.map,
    Work.andThen, Action.work, triggerHooks, Progress.andThen_assoc, h.keeps.hooks_eq, h.hooks_eq]
  refine (matches_callEach haloof hbegun).andThen ?_
  rintro v ⟨⟩ v' ⟨⟩ ⟨hbeside, -, hscope, hmade⟩
  refine .done ⟨?_, rfl, rfl, (List.append_nil _).symm, rfl, hmade.trans ?_⟩
  · rw [Operation.deed?, Option.toList_none, List.append_nil]
    exact ⟨hbeside, h.number_lt, hscope.trans h.scope_eq, h.keeps⟩
  · exact congrArg (· ++ _) hsame

/-- One operation, on the registry and on the list of the scope. The scope keeps a note of every
operation, the registry only of the calls. -/
theorem operation (h : InStep number before past w b w') (op : Operation)
    (haloof : ∀ hook ∈ standing past, ∀ point, (call hook point).Aloof mayFail)
    (taken : List (List Hook)) :
    (b.step call (op.command number) w).Matches (op.Got number before past b taken w')
      (fun v v' => mayFail ∧ v.Beside before v') mayFail (op.scoped call taken w') := by
  cases op with
  | register hook => exact h.register hook taken
  | clear => exact h.clear taken
  | snapshot => exact h.snapshot taken
  | trigger point => exact h.trigger point (fun hook hmem => haloof hook hmem point) taken

end InStep

theorem Operation.mem_standing {op : Operation} {hook : Hook}
    (h : hook ∈ standing (past ++ op.deed?.toList)) :
    hook ∈ standing past ∨ op = .register (some hook) := by
  cases op with
  | register supplied =>
    rw [deed?, Option.toList_some, standing_append rfl, List.mem_append] at h
    cases supplied with
    | none => exact h.imp_right fun hmem => nomatch hmem
    | some other => exact h.imp_right fun hmem => by rw [List.mem_singleton.1 hmem]
  | clear =>
    rw [deed?, Option.toList_some, standing_append_cleared] at h
    exact nomatch h
  | snapshot | trigger =>
    rw [deed?, Option.toList_none, List.append_nil] at h
    exact .inl h

/-- Operations that follow each other, on the registry and on the list of the scope. -/
theorem InStep.operations (h : InStep number before past w b w') {ops : List Operation}
    (hpast : ∀ hook ∈ standing past, ∀ point, (call hook point).Aloof mayFail)
    (hops : ∀ hook, .register (some hook) ∈ ops → ∀ point, (call hook point).Aloof mayFail)
    (taken : List (List Hook)) :
    (Work.inOrder (Bench.step call) b (ops.map (Operation.command number)) w).Matches
      (fun v there v' here =>
        InStep number before (past ++ ops.filterMap Operation.deed?) v there.1 v' ∧
          there.2 = (account past ops).replies ∧ here.2 = (account past ops).replies ∧
          there.1.taken = b.taken ++ (account past ops).snapshots ∧
          here.1 = taken ++ (account past ops).snapshots ∧
          v'.called = w'.called ++ (account past ops).calls)
      (fun v v' => mayFail ∧ v.Beside before v') mayFail
      (Work.inOrder (Operation.scoped call) taken ops w') := by
  induction ops generalizing past w w' b taken with
  | nil =>
    refine .done ⟨?_, rfl, rfl, (List.append_nil _).symm, (List.append_nil _).symm,
      (List.append_nil _).symm⟩
    rw [List.filterMap_nil, List.append_nil]
    exact h
  | cons op ops ih =>
    obtain ⟨hop, hrest⟩ : (∀ hook, op = .register (some hook) →
        ∀ point, (call hook point).Aloof mayFail) ∧ ∀ hook, .register (some hook) ∈ ops →
        ∀ point, (call hook point).Aloof mayFail :=
      ⟨fun hook heq => hops hook (heq ▸ List.mem_cons_self),
        fun hook hmem => hops hook (List.mem_cons_of_mem _ hmem)⟩
    have hstanding : ∀ hook ∈ standing (past ++ op.deed?.toList),
        ∀ point, (call hook point).Aloof mayFail :=
      fun hook hmem => (Operation.mem_standing hmem).elim (hpast hook) (hop hook)
    refine (h.operation op hpast taken).andThen ?_
    rintro v there v' here ⟨hstep, hreply, hreply', htaken, htaken', hmade⟩
    refine (ih hstep hstanding hrest here.1).andThen ?_
    rintro u end_ u' end' ⟨hend, hall, hall', hread, hread', hcalls⟩
    have hdeeds : (op :: ops).filterMap Operation.deed? =
        op.deed?.toList ++ ops.filterMap Operation.deed? := by
      cases hdeed : op.deed? <;> simp [hdeed]
    rw [htaken, List.append_assoc] at hread
    rw [htaken', List.append_assoc] at hread'
    rw [hmade, List.append_assoc] at hcalls
    refine .done
      ⟨?_, congrArg₂ List.cons hreply hall, congrArg₂ List.cons hreply' hall', hread, hread', hcalls⟩
    rw [hdeeds, ← List.append_assoc]
    exact hend

end Operations

/-- The answer that is seen behind an action. -/
def Observation.reply : Observation → Reply
  | mk reply _ _ _ => reply

/-- The operations in a scope are a script. -/
theorem course_operations (call : Caller) (taken : List (List Hook)) (ops : List Operation) :
    (course call (ops.map Operation.action)).map (·.map Observation.reply) =
      (Work.inOrder (Operation.scoped call) taken ops).map Prod.snd := by
  induction ops generalizing taken with
  | nil => rfl
  | cons op ops ih =>
    funext w
    simp only [List.map_cons, course, Work.inOrder, Operation.scoped, Work.map, Work.andThen,
      Progress.andThen_assoc]
    refine congrArg (Progress.andThen (op.action.work call w)) ?_
    funext reply v
    -- behind the first operation the script is again the operations that are left
    have hrest := congrArg (fun p => p.andThen fun replies => Work.answer (reply :: replies))
      (congrFun (ih (taken ++ op.read w.scope.hooks)) v)
    simp only [Work.map, Work.andThen, Progress.andThen_assoc] at hrest
    simp only [Work.andThen, observe, Work.answer, Progress.andThen, Progress.andThen_assoc]
      at hrest ⊢
    exact hrest

/-- Take any hooks that leave the list alone, and any operations on a list that is empty at first.
Whether the list is kept in a registry or in a scope, the operations come out in the same way: they
get the answers, read the hooks and make the calls that the earlier operations let expect, and leave
the same marks. If a hook fails or goes beyond the limit, so it does both ways, behind the same calls
and marks; if none may do that, the operations come to their end. Behind the operations both lists
are the same: they have the hooks that were registered since the last clearing, in that order, and a
list is attached exactly as long as there are any. The operations in the scope may as well be given
as a script. A registration without a hook is refused, and changes nothing. -/
theorem strategies_agree (call : Caller) (mayFail : Prop) (ops : List Operation)
    (haloof : ∀ hook, .register (some hook) ∈ ops → ∀ point, (call hook point).Aloof mayFail)
    (b : Bench) (number : Nat) (hnumber : number < b.registries.length)
    (hempty : b.registry number = .empty) (w : World) :
    let inScope := w.goTo (.opening .fresh)
    let a := account [] ops
    (Work.inOrder (Bench.step call) b (ops.map (Operation.command number)) w).Matches
      (fun v there v' here =>
        let r := there.1.registry number
        (there.2 = a.replies ∧ here.2 = a.replies) ∧
          (there.1.taken = b.taken ++ a.snapshots ∧ here.1 = a.snapshots) ∧
          (v.called = w.called ++ a.calls ∧ v'.called = a.calls) ∧ v.calls = v'.calls ∧
          v'.scope = some r ∧ r.hooks = standing (ops.filterMap Operation.deed?) ∧
          (r.isAttached = true ↔ r.hooks ≠ []))
      (fun v v' => mayFail ∧ v.called = w.called ++ v'.called ∧ v.calls = v'.calls) mayFail
      (Work.inOrder (Operation.scoped call) [] ops inScope) ∧
    (course call (ops.map Operation.action)).map (·.map Observation.reply) inScope =
      (Work.inOrder (Operation.scoped call) [] ops).map Prod.snd inScope ∧
    ∀ r : Registry Hook,
      (r.register none).answer = .error .missingHook ∧ (r.register none).state = r ∧
        (Scope.register (some r) none).answer = .error .missingHook ∧
        (Scope.register (some r) none).state = some r := by
  intro inScope a
  have hstart : InStep number w.called [] w b inScope := by
    refine ⟨⟨⟨rfl, rfl⟩, (List.append_nil _).symm⟩, hnumber, ?_, ?_⟩
    · rw [hempty]
      rfl
    · rw [hempty]
      exact Registry.keeps_empty
  refine ⟨?_, congrFun (course_operations call [] ops) inScope, fun r => ⟨rfl, rfl, rfl, rfl⟩⟩
  refine (hstart.operations (fun _ hmem => nomatch hmem) haloof []).mono ?_ ?_
  · rintro v there v' here ⟨hend, hreplies, hreplies', htaken, htaken', hcalls⟩
    have hcalled : v'.called = a.calls := hcalls
    refine ⟨⟨hreplies, hreplies'⟩, ⟨htaken, htaken'⟩, ⟨?_, hcalled⟩, hend.beside.alike.calls_eq,
      hend.scope_eq, hend.keeps.hooks_eq, hend.keeps.attached_iff⟩
    rw [hend.beside.called_eq, hcalled]
  · rintro v v' ⟨hmay, hbeside⟩
    exact ⟨hmay, hbeside.called_eq, hbeside.alike.calls_eq⟩

/-- Hooks are registered and called between refused registrations, before the first one and behind a
clearing. A list that was read before the clearing still has its hook. -/
theorem strategies_agree_around_clearing :
    let a : Hook := .mk "a" .everyPoint fun _ => []
    let b : Hook := .mk "b" .dispatch fun _ => [.fail]
    let ops : List Operation :=
      [.register none, .trigger .beforeBegin, .register (some a), .snapshot, .register none,
        .register (some b), .trigger .beforeCommit, .clear, .register none, .snapshot,
        .register (some b), .trigger .afterCompletion]
    (∀ hook, .register (some hook) ∈ ops → ∀ point, (Hook.call 1 hook point).Aloof False) ∧
    ∃ v there v' here,
      Work.inOrder (Bench.step (Hook.call 1)) .start (ops.map (Operation.command 0)) .start =
        .done v there ∧
      Work.inOrder (Operation.scoped (Hook.call 1)) [] ops (World.start.goTo (.opening .fresh)) =
        .done v' here ∧
      there.1.taken = [[a], []] ∧ here.1 = [[a], []] ∧
      v.called = [(a, .beforeCommit), (b, .beforeCommit), (b, .afterCompletion)] ∧
      v'.called = [(a, .beforeCommit), (b, .beforeCommit), (b, .afterCompletion)] ∧
      v.calls = v'.calls ∧ (there.1.registry 0).hooks = [b] ∧ v'.scope.hooks = [b] := by
  intro a b ops
  have haloof : ∀ hook, .register (some hook) ∈ ops →
      ∀ point, (Hook.call 1 hook point).Aloof False := by
    intro hook hmem point
    have hhook : hook = a ∨ hook = b := by simpa [ops] using hmem
    exact aloof_call_of_reaction (by rcases hhook with rfl | rfl <;> rfl) 0
  obtain ⟨hboth, -, -⟩ := strategies_agree (Hook.call 1) False ops haloof .start 0 (by decide) rfl
    .start
  obtain ⟨v, there, v', here, hthere, hhere, -, ⟨htaken, htaken'⟩, ⟨hcalled, hcalled'⟩, hcalls,
    hscope, hhooks, -⟩ := hboth.exists_done (fun _ _ hfailure => hfailure.1) id
  have hsnapshots : (account [] ops).snapshots = [[a], []] := by cbv
  have hmade : (account [] ops).calls =
      [(a, .beforeCommit), (b, .beforeCommit), (b, .afterCompletion)] := by cbv
  have hstanding : standing (ops.filterMap Operation.deed?) = [b] := by cbv
  rw [hsnapshots] at htaken htaken'
  rw [hmade] at hcalled hcalled'
  rw [hstanding] at hhooks
  refine ⟨haloof, v, there, v', here, hthere, hhere, htaken, htaken', hcalled, hcalled', hcalls,
    hhooks, ?_⟩
  rw [hscope]
  exact hhooks

end GlobalTransaction.Lifecycle
