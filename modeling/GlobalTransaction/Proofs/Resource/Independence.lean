import GlobalTransaction.Proofs.Resource.Calls
import GlobalTransaction.Proofs.Schedules
import GlobalTransaction.Resource.Connection
import Mathlib.Data.Set.Defs

/-!
# Clients that share nothing

A request to a keeper reads and changes what is kept for its key and the flag of its resource, and
a lookup reads what is kept for its key. So clients with different keys and different resources
make no difference to each other, whatever the order of their requests and whatever state they
find, be it one in which flags and mappings disagree.

## Main definitions

* `Command.place?`, `Command.resource?` — the key and the resource that a command is about
* `Answer.verdict` — what a client learns from an answer, apart from the wording of a refusal
* `Depot.AlikeOn` — two depots agree on some keys and some resources

## Main results

* `Depot.AlikeOn.step` — where depots agree, requests get the same verdict, and agreement stays
* `Depot.AlikeOn.step_elsewhere` — requests about other keys and resources leave it
* `Depot.clients_independent` — clients that share nothing do not influence each other
-/

set_option autoImplicit false

namespace GlobalTransaction.Resource

variable {R : Type} {n : Nat}

namespace Depot

/-- The request that a command is. -/
def Command.call? : Command R n → Option (Call R n)
  | .hold k key resource => some ⟨.hold, k, key, resource⟩
  | .release k key resource => some ⟨.release, k, key, resource⟩
  | _ => none

/-- The keeper and the key that a request or a lookup is about. -/
def Command.place? : Command R n → Option (Fin n × String)
  | .hold k key _ | .release k key _ | .lookup k key => some (k, key)
  | _ => none

/-- The resource that a request is about. -/
def Command.resource? (command : Command R n) : Option R := command.call?.map Call.resource

/-- What a client learns from an answer: that it was refused, or else the resource that it got back,
if it got one. The report about a refusal is left out, as it describes the resources in words that
may depend on anything. -/
def Answer.verdict : Answer R → Option (Option R)
  | .held (.ok previous) => some previous
  | .released (.ok resource) => some (some resource)
  | .found resource => some resource
  | .held (.error _) | .released (.error _) => none
  | .done | .required _ | .cached _ => some none

/-- What has a key is a request about that key or its lookup. -/
theorem Command.place?_eq_some {command : Command R n} {k : Fin n} {key : String}
    (h : command.place? = some (k, key)) :
    (∃ call, command.call? = some call ∧ call.keeper = k ∧ call.key = key) ∨
      command = .lookup k key := by
  cases command with
  | hold k' key' resource =>
    obtain ⟨rfl, rfl⟩ := Prod.mk.inj (Option.some.inj h)
    exact .inl ⟨_, rfl, rfl, rfl⟩
  | release k' key' resource =>
    obtain ⟨rfl, rfl⟩ := Prod.mk.inj (Option.some.inj h)
    exact .inl ⟨_, rfl, rfl, rfl⟩
  | lookup k' key' =>
    obtain ⟨rfl, rfl⟩ := Prod.mk.inj (Option.some.inj h)
    exact .inr rfl
  | setHeld | setShouldBeHeld | setStatus | getStatus | clearStatus | cache => exact nomatch h

variable [DecidableEq R]

/-- A request that is effective gives back what was kept for its key. One that is not is refused,
and changes nothing. -/
theorem step_of_call? (describe : Depot R n → R → String) (d : Depot R n) {command : Command R n}
    {call : Call R n} (h : command.call? = some call) :
    (d.Permits call ∧ d.Carried call (step describe d command).state ∧
      (step describe d command).answer.verdict = some (d.lookup call.keeper call.key)) ∨
    (¬ d.Permits call ∧ (step describe d command).state = d ∧
      (step describe d command).answer.verdict = none) := by
  cases command with
  | hold k key resource =>
    obtain rfl := Option.some.inj h
    rcases hold_cases describe d k key resource with ⟨_, hok, hp, hc⟩ | ⟨⟨_, herror⟩, hp, hsame⟩
    · refine .inl ⟨hp, hc, ?_⟩
      rw [step, Outcome.map, hok, hold_answer_eq hok]
      rcases hp with hkept | ⟨hnone, -⟩
      · rw [if_pos hkept, hkept]
        rfl
      · rw [hnone]
        rfl
    · exact .inr ⟨hp, hsame, by rw [step, Outcome.map, herror]; rfl⟩
  | release k key resource =>
    obtain rfl := Option.some.inj h
    rcases release_cases describe d k key resource with ⟨_, hok, hp, hc⟩ | ⟨⟨_, herror⟩, hp, hsame⟩
    · refine .inl ⟨hp, hc, ?_⟩
      have hkept : d.lookup k key = some resource := hp
      rw [step, Outcome.map, release_kept hkept, hkept]
      rfl
    · exact .inr ⟨hp, hsame, by rw [step, Outcome.map, herror]; rfl⟩
  | lookup | setHeld | setShouldBeHeld | setStatus | getStatus | clearStatus | cache => cases h

/-- Two depots agree on what is kept for some keys and on the flags of some resources. -/
structure AlikeOn (places : Set (Fin n × String)) (resources : Set R) (d other : Depot R n) :
    Prop where
  lookup_eq : ∀ k key, (k, key) ∈ places → d.lookup k key = other.lookup k key
  isHeld_eq : ∀ resource ∈ resources, d.isHeld resource = other.isHeld resource

section Alike

variable {describe : Depot R n → R → String} {d other : Depot R n}
variable {places : Set (Fin n × String)} {resources : Set R}

theorem AlikeOn.refl (d : Depot R n) : AlikeOn places resources d d :=
  ⟨fun _ _ _ => rfl, fun _ _ => rfl⟩

/-- A request is judged by its own key and its own resource. -/
theorem AlikeOn.permits_iff (h : AlikeOn places resources d other) {call : Call R n}
    (hplace : (call.keeper, call.key) ∈ places) (hresource : call.resource ∈ resources) :
    d.Permits call ↔ other.Permits call := by
  have hlookup := h.lookup_eq _ _ hplace
  have hheld := h.isHeld_eq _ hresource
  obtain ⟨operation, k, key, resource⟩ := call
  cases operation <;> simp only [Permits, hlookup, hheld]

theorem AlikeOn.carried (h : AlikeOn places resources d other) {call : Call R n}
    {behind otherBehind : Depot R n} (hcarried : d.Carried call behind)
    (hother : other.Carried call otherBehind) : AlikeOn places resources behind otherBehind where
  lookup_eq k key hplace := by
    rw [hcarried.lookup_eq, hother.lookup_eq, h.lookup_eq k key hplace]
  isHeld_eq resource hresource := by
    rw [hcarried.isHeld_eq, hother.isHeld_eq, h.isHeld_eq resource hresource]

theorem AlikeOn.carried_elsewhere (h : AlikeOn places resources d other) {call : Call R n}
    {behind : Depot R n} (hcarried : d.Carried call behind)
    (hplace : (call.keeper, call.key) ∉ places) (hresource : call.resource ∉ resources) :
    AlikeOn places resources behind other where
  lookup_eq k key hmem := by
    have hne : ¬(k = call.keeper ∧ key = call.key) := by
      rintro ⟨rfl, rfl⟩
      exact hplace hmem
    rw [hcarried.lookup_eq, if_neg hne, h.lookup_eq k key hmem]
  isHeld_eq resource hmem := by
    have hne : resource ≠ call.resource := by
      rintro rfl
      exact hresource hmem
    rw [hcarried.isHeld_eq, if_neg hne, h.isHeld_eq resource hmem]

/-- Where depots agree on what a request or a lookup is about, it gets the same verdict, and they
agree behind it as before. -/
theorem AlikeOn.step (h : AlikeOn places resources d other) {command : Command R n}
    (hplace : ∃ place ∈ places, command.place? = some place)
    (hresource : ∀ resource ∈ command.resource?, resource ∈ resources) :
    (step describe d command).answer.verdict = (Depot.step describe other command).answer.verdict ∧
      AlikeOn places resources (Depot.step describe d command).state
        (Depot.step describe other command).state := by
  obtain ⟨⟨k, key⟩, hmem, hcommand⟩ := hplace
  rcases Command.place?_eq_some hcommand with ⟨call, hcall, rfl, rfl⟩ | rfl
  · have hoffered : call.resource ∈ resources :=
      hresource call.resource (by simp [Command.resource?, hcall])
    have hpermits := h.permits_iff hmem hoffered
    -- the request is effective on both depots, or it changes neither
    rcases step_of_call? describe d hcall with ⟨hp, hcarried, hverdict⟩ | ⟨hp, hsame, hverdict⟩
    · rcases step_of_call? describe other hcall with ⟨-, hother, hverdict'⟩ | ⟨hnot, -⟩
      · rw [hverdict, hverdict', h.lookup_eq _ _ hmem]
        exact ⟨rfl, h.carried hcarried hother⟩
      · exact absurd (hpermits.1 hp) hnot
    · rcases step_of_call? describe other hcall with ⟨hyes, -⟩ | ⟨-, hother, hverdict'⟩
      · exact absurd (hpermits.2 hyes) hp
      · rw [hverdict, hverdict', hsame, hother]
        exact ⟨rfl, h⟩
  · exact ⟨congrArg some (h.lookup_eq k key hmem), h⟩

/-- A request or a lookup about something else changes nothing in which depots agree. -/
theorem AlikeOn.step_elsewhere (h : AlikeOn places resources d other) {command : Command R n}
    (hplace : ∃ place ∉ places, command.place? = some place)
    (hresource : ∀ resource ∈ command.resource?, resource ∉ resources) :
    AlikeOn places resources (Depot.step describe d command).state other := by
  obtain ⟨⟨k, key⟩, hmem, hcommand⟩ := hplace
  rcases Command.place?_eq_some hcommand with ⟨call, hcall, rfl, rfl⟩ | rfl
  · rcases step_of_call? describe d hcall with ⟨-, hcarried, -⟩ | ⟨-, hsame, -⟩
    · exact h.carried_elsewhere hcarried hmem
        (hresource call.resource (by simp [Command.resource?, hcall]))
    · rw [hsame]
      exact h
  · exact h

end Alike

/-! ### Clients -/

section Clients

variable {ι : Type} [DecidableEq ι] {sequences : ι → List (Command R n)}
variable {schedule : Schedule ι (Command R n)}

/-- Clients that hold, release and look up, each under keys and with resources of its own. -/
structure Separate (sequences : ι → List (Command R n)) : Prop where
  place_isSome : ∀ client, ∀ command ∈ sequences client, command.place?.isSome = true
  /-- Different clients use different keys, or the same key of different keepers. -/
  place_ne : ∀ client other, client ≠ other → ∀ command ∈ sequences client,
    ∀ command' ∈ sequences other, command.place? ≠ command'.place?
  /-- Different clients use different resources. -/
  resource_ne : ∀ client other, client ≠ other → ∀ command ∈ sequences client,
    ∀ command' ∈ sequences other, ∀ resource ∈ command.resource?, resource ∉ command'.resource?

/-- The keys that commands are about. -/
def placesOf (commands : List (Command R n)) : Set (Fin n × String) :=
  {place | ∃ command ∈ commands, command.place? = some place}

/-- The resources that commands are about. -/
def resourcesOf (commands : List (Command R n)) : Set R :=
  {resource | ∃ command ∈ commands, resource ∈ command.resource?}

/-- A client among others gets the same verdicts as alone, and what it uses ends up the same. -/
theorem Separate.alone (h : Separate sequences) (hschedule : schedule.Interleaves sequences)
    (describe : Depot R n → R → String) (d : Depot R n) (client : ι) :
    (Outcome.answersTo (step describe) d schedule client).map Answer.verdict =
        (run describe d (sequences client)).answer.map Answer.verdict ∧
      AlikeOn (placesOf (sequences client)) (resourcesOf (sequences client))
        (run describe d schedule.commands).state (run describe d (sequences client)).state := by
  have hmem : ∀ {who command}, (who, command) ∈ schedule → command ∈ sequences who := by
    intro who command hturn
    exact hschedule who ▸ Schedule.mem_commandsOf.2 hturn
  rw [← hschedule client]
  refine Outcome.answersTo_eq_alone ?_ ?_ (AlikeOn.refl d)
  · rw [hschedule client]
    intro s t command hturn halike
    obtain ⟨place, hplace⟩ := Option.isSome_iff_exists.1 (h.place_isSome _ _ (hmem hturn))
    exact halike.step ⟨place, ⟨command, hmem hturn, hplace⟩, hplace⟩
      fun resource hresource => ⟨command, hmem hturn, hresource⟩
  · rw [hschedule client]
    intro s t other command hne hturn halike
    obtain ⟨place, hplace⟩ := Option.isSome_iff_exists.1 (h.place_isSome _ _ (hmem hturn))
    refine halike.step_elsewhere ⟨place, ?_, hplace⟩ ?_
    · rintro ⟨own, hown, hsame⟩
      exact h.place_ne _ _ hne _ (hmem hturn) _ hown (hplace.trans hsame.symm)
    · rintro resource hresource ⟨own, hown, hsame⟩
      exact h.resource_ne _ _ hne _ (hmem hturn) _ hown resource hresource hsame

/-- What no client uses stays as it was. -/
theorem Separate.untouched (h : Separate sequences) (hschedule : schedule.Interleaves sequences)
    (describe : Depot R n → R → String) (d : Depot R n) :
    AlikeOn {place | ∀ client, place ∉ placesOf (sequences client)}
      {resource | ∀ client, resource ∉ resourcesOf (sequences client)}
      (run describe d schedule.commands).state d := by
  have hrun : Outcome.Admits (step describe) (fun _ command => ∃ client, command ∈ sequences client)
      d schedule.commands := .of_forall_mem (fun _ => hschedule.exists_mem) d
  refine Outcome.run_admitted_induction (P := fun s => AlikeOn _ _ s d) (AlikeOn.refl d) ?_ hrun
  rintro s command ⟨client, hcommand⟩ halike
  obtain ⟨place, hplace⟩ := Option.isSome_iff_exists.1 (h.place_isSome _ _ hcommand)
  exact halike.step_elsewhere ⟨place, fun hfree => hfree client ⟨command, hcommand, hplace⟩, hplace⟩
    fun resource hresource hfree => hfree client ⟨command, hcommand, hresource⟩

/-- Take clients that hold, release and look up, each under keys and with resources of its own,
and a depot in any state. In whatever order their requests come, each client is answered as if it
were alone: the same of its requests are refused, and it gets the same resources back. What is kept
for each key and which flags are set in the end does not depend on that order either. -/
theorem clients_independent (describe : Depot R n → R → String) (d : Depot R n)
    (h : Separate sequences) :
    (∀ schedule, Schedule.Interleaves schedule sequences → ∀ client,
      (Outcome.answersTo (step describe) d schedule client).map Answer.verdict =
        (run describe d (sequences client)).answer.map Answer.verdict) ∧
    ∀ first second, Schedule.Interleaves first sequences → Schedule.Interleaves second sequences →
      (run describe d first.commands).state.lookup =
          (run describe d second.commands).state.lookup ∧
        (run describe d first.commands).state.isHeld =
          (run describe d second.commands).state.isHeld := by
  refine ⟨fun schedule hschedule client => (h.alone hschedule describe d client).1, ?_⟩
  intro first second hfirst hsecond
  constructor
  · funext k key
    by_cases hused : ∃ client, (k, key) ∈ placesOf (sequences client)
    · obtain ⟨client, hplace⟩ := hused
      rw [(h.alone hfirst describe d client).2.lookup_eq k key hplace,
        (h.alone hsecond describe d client).2.lookup_eq k key hplace]
    · have hfree := not_exists.1 hused
      rw [(h.untouched hfirst describe d).lookup_eq k key hfree,
        (h.untouched hsecond describe d).lookup_eq k key hfree]
  · funext resource
    by_cases hused : ∃ client, resource ∈ resourcesOf (sequences client)
    · obtain ⟨client, hresource⟩ := hused
      rw [(h.alone hfirst describe d client).2.isHeld_eq resource hresource,
        (h.alone hsecond describe d client).2.isHeld_eq resource hresource]
    · have hfree := not_exists.1 hused
      rw [(h.untouched hfirst describe d).isHeld_eq resource hfree,
        (h.untouched hsecond describe d).isHeld_eq resource hfree]

/-- Two clients of one keeper: the first holds a connection and gives it back, the second one holds
another one twice, and cannot give it back under a key that it does not have. -/
def neighbours (k : Fin n) : Fin 2 → List (Command (Connection n) n)
  | 0 => [.hold k "x" ⟨1, none⟩, .lookup k "x", .release k "x" ⟨1, none⟩]
  | 1 => [.hold k "y" ⟨2, none⟩, .hold k "y" ⟨2, none⟩, .release k "z" ⟨2, none⟩]

/-- The requests of the first client come between those of the second. -/
def weave (k : Fin n) : Schedule (Fin 2) (Command (Connection n) n) :=
  [(1, .hold k "y" ⟨2, none⟩), (0, .hold k "x" ⟨1, none⟩), (0, .lookup k "x"),
    (1, .hold k "y" ⟨2, none⟩), (1, .release k "z" ⟨2, none⟩), (0, .release k "x" ⟨1, none⟩)]

/-- In the depot that the clients find, a key has a resource whose flag is not set. The second client
is answered as if it were alone there, and what the keys have in the end is what they have when it
comes behind the first one. -/
theorem neighbours_independent :
    let d : Depot (Connection 1) 1 :=
      ⟨#v[⟨.blank, false, [("z", ⟨7, none⟩)]⟩], [], ⟨.empty 4 600 (by decide), 0⟩⟩
    let inTurn : Schedule (Fin 2) (Command (Connection 1) 1) :=
      (neighbours 0 0).map (0, ·) ++ (neighbours 0 1).map (1, ·)
    (Separate (neighbours (0 : Fin 1)) ∧ Schedule.Interleaves (weave 0) (neighbours (0 : Fin 1)) ∧
      inTurn.Interleaves (neighbours 0)) ∧
    (Outcome.answersTo (step Connection.describe) d (weave 0) 1).map Answer.verdict =
      [some none, some (some ⟨2, none⟩), none] ∧
    (run Connection.describe d (weave 0).commands).state.lookup =
      (run Connection.describe d inTurn.commands).state.lookup := by
  intro d inTurn
  have hseparate : Separate (neighbours (0 : Fin 1)) := by
    constructor <;> decide +kernel
  have hweave : Schedule.Interleaves (weave 0) (neighbours (0 : Fin 1))
    | 0 => rfl
    | 1 => rfl
  have hinTurn : inTurn.Interleaves (neighbours 0)
    | 0 => rfl
    | 1 => rfl
  obtain ⟨halone, hend⟩ := clients_independent Connection.describe d hseparate
  have hverdicts : (run Connection.describe d (neighbours 0 1)).answer.map Answer.verdict =
      [some none, some (some ⟨2, none⟩), none] := by decide +kernel
  exact ⟨⟨hseparate, hweave, hinTurn⟩, (halone _ hweave 1).trans hverdicts,
    (hend _ _ hweave hinTurn).1⟩

end Clients

end Depot

end GlobalTransaction.Resource
