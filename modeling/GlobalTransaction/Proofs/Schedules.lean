import GlobalTransaction.Proofs.Runs

/-!
# Clients that take turns

Several clients work on one state. Each has commands of its own, and a schedule says in which
order they come. A client to whom the commands of the others make no difference sees what it would
see alone.

## Main definitions

* `Schedule` — turns, each of a client with a command
* `Schedule.commandsOf` — the commands of one client
* `Schedule.signed` — commands that carry the names of their clients
* `Schedule.Interleaves` — a schedule gives every client its own sequence of commands
* `Outcome.answersTo` — the answers that one client gets

## Main results

* `Outcome.answersTo_eq_alone` — what a client sees of a run, and what it would see alone
-/

set_option autoImplicit false

namespace GlobalTransaction

variable {ι κ σ α : Type}

/-- Turns that follow each other, each of a client with a command. -/
abbrev Schedule (ι κ : Type) := List (ι × κ)

namespace Schedule

/-- The commands of all clients, in the order of the turns. -/
def commands (schedule : Schedule ι κ) : List κ := schedule.map Prod.snd

/-- The commands with the names of the clients that give them. -/
def signed (schedule : Schedule ι κ) : Schedule ι (ι × κ) :=
  schedule.map fun turn => (turn.1, turn)

/-- Turns of one client only. -/
def solo (client : ι) (commands : List κ) : Schedule ι κ := commands.map (client, ·)

theorem commands_append (schedule later : Schedule ι κ) :
    commands (schedule ++ later) = schedule.commands ++ later.commands :=
  List.map_append

theorem commands_solo (client : ι) (commands : List κ) :
    Schedule.commands (solo client commands) = commands := by
  simp [solo, Schedule.commands, Function.comp_def]

theorem commands_signed (schedule : Schedule ι κ) : schedule.signed.commands = schedule := by
  simp [signed, commands, Function.comp_def]

theorem eq_of_mem_signed {schedule : Schedule ι κ} {client : ι} {command : ι × κ}
    (h : (client, command) ∈ schedule.signed) : command.1 = client := by
  obtain ⟨turn, -, heq⟩ := List.mem_map.1 h
  obtain ⟨rfl, rfl⟩ := Prod.mk.inj heq
  rfl

variable [DecidableEq ι]

/-- The commands of one client, in the order of its turns. -/
def commandsOf (schedule : Schedule ι κ) (client : ι) : List κ :=
  (schedule.filter fun turn => decide (turn.1 = client)).map Prod.snd

/-- Every client gets the commands of its own sequence, in their order. -/
def Interleaves (schedule : Schedule ι κ) (sequences : ι → List κ) : Prop :=
  ∀ client, schedule.commandsOf client = sequences client

theorem commandsOf_cons (turn : ι × κ) (schedule : Schedule ι κ) (client : ι) :
    commandsOf (turn :: schedule) client =
      if turn.1 = client then turn.2 :: schedule.commandsOf client
      else schedule.commandsOf client := by
  by_cases h : turn.1 = client <;> simp [commandsOf, h]

theorem commandsOf_append (schedule later : Schedule ι κ) (client : ι) :
    commandsOf (schedule ++ later) client =
      schedule.commandsOf client ++ later.commandsOf client := by
  rw [commandsOf, List.filter_append, List.map_append, commandsOf, commandsOf]

theorem mem_commandsOf {schedule : Schedule ι κ} {client : ι} {command : κ} :
    command ∈ schedule.commandsOf client ↔ (client, command) ∈ schedule := by
  rw [commandsOf, List.mem_map]
  constructor
  · rintro ⟨⟨other, _⟩, hturn, rfl⟩
    obtain ⟨hmem, hclient⟩ := List.mem_filter.1 hturn
    obtain rfl := of_decide_eq_true hclient
    exact hmem
  · intro hmem
    exact ⟨(client, command), List.mem_filter.2 ⟨hmem, decide_eq_true rfl⟩, rfl⟩

theorem commandsOf_solo (who client : ι) (commands : List κ) :
    (solo who commands).commandsOf client = if who = client then commands else [] := by
  rw [solo]
  induction commands with
  | nil => exact (ite_self []).symm
  | cons command commands ih =>
    rw [List.map_cons, commandsOf_cons, ih]
    by_cases h : who = client <;> simp [h]

theorem commandsOf_signed (schedule : Schedule ι κ) (client : ι) :
    schedule.signed.commandsOf client = (schedule.commandsOf client).map (client, ·) := by
  induction schedule with
  | nil => rfl
  | cons turn schedule ih =>
    rw [signed, List.map_cons, commandsOf_cons, commandsOf_cons, ← signed, ih]
    obtain ⟨who, command⟩ := turn
    by_cases h : who = client <;> simp [h]

/-- A command of a schedule is one of the sequence of some client. -/
theorem Interleaves.exists_mem {schedule : Schedule ι κ} {sequences : ι → List κ}
    (h : schedule.Interleaves sequences) {command : κ} (hcommand : command ∈ schedule.commands) :
    ∃ client, command ∈ sequences client := by
  obtain ⟨⟨client, _⟩, hturn, rfl⟩ := List.mem_map.1 hcommand
  exact ⟨client, h client ▸ mem_commandsOf.2 hturn⟩

end Schedule

namespace Outcome

variable [DecidableEq ι] (step : σ → κ → Outcome σ α)

/-- The answers that one client gets in the run of a whole schedule. -/
def answersTo (start : σ) (schedule : Schedule ι κ) (client : ι) : List α :=
  ((schedule.zip (run step start schedule.commands).answer).filter fun reply =>
    decide (reply.1.1 = client)).map Prod.snd

variable {step} {β : Type}

theorem answersTo_cons (start : σ) (turn : ι × κ) (schedule : Schedule ι κ) (client : ι) :
    answersTo step start (turn :: schedule) client =
      if turn.1 = client then
        (step start turn.2).answer :: answersTo step (step start turn.2).state schedule client
      else answersTo step (step start turn.2).state schedule client := by
  by_cases h : turn.1 = client <;> simp [answersTo, Schedule.commands, run, h]

theorem exists_mem_answersTo_cons {P : α → Prop} (start : σ) (turn : ι × κ)
    (schedule : Schedule ι κ) (client : ι) :
    (∃ answer ∈ answersTo step start (turn :: schedule) client, P answer) ↔
      (turn.1 = client ∧ P (step start turn.2).answer) ∨
        ∃ answer ∈ answersTo step (step start turn.2).state schedule client, P answer := by
  by_cases h : turn.1 = client <;> simp [answersTo_cons, h]

/-- A client of a schedule beside the same client alone. If its own commands keep two states alike
and it sees the same of their answers, and the commands of others leave the state alike to what the
client would have alone, then it sees the same of all answers. Alone it may have less of a state. -/
theorem answersTo_eq_alone {τ : Type} {own : τ → κ → Outcome τ α} {alike : σ → τ → Prop}
    {view : α → β} {client : ι} {schedule : Schedule ι κ}
    (hown : ∀ s t command, (client, command) ∈ schedule → alike s t →
      view (step s command).answer = view (own t command).answer ∧
        alike (step s command).state (own t command).state)
    (hothers : ∀ s t other command, other ≠ client → (other, command) ∈ schedule → alike s t →
      alike (step s command).state t)
    {start : σ} {alone : τ} (h : alike start alone) :
    (answersTo step start schedule client).map view =
        (run own alone (schedule.commandsOf client)).answer.map view ∧
      alike (run step start schedule.commands).state
        (run own alone (schedule.commandsOf client)).state := by
  induction schedule generalizing start alone with
  | nil => exact ⟨rfl, h⟩
  | cons turn schedule ih =>
    obtain ⟨who, command⟩ := turn
    have hownRest := fun s t c (hc : (client, c) ∈ schedule) =>
      hown s t c (List.mem_cons_of_mem _ hc)
    have hothersRest := fun s t other c hne (hc : (other, c) ∈ schedule) =>
      hothers s t other c hne (List.mem_cons_of_mem _ hc)
    rw [answersTo_cons, Schedule.commandsOf_cons]
    by_cases hwho : who = client
    · -- its own turn comes alone too, and is answered alike
      subst hwho
      obtain ⟨hanswer, halike⟩ := hown start alone command List.mem_cons_self h
      obtain ⟨hanswers, hend⟩ := ih hownRest hothersRest halike
      rw [if_pos rfl, if_pos rfl, run, List.map_cons, List.map_cons, hanswer, hanswers]
      exact ⟨rfl, hend⟩
    · have halike := hothers start alone who command hwho List.mem_cons_self h
      rw [if_neg hwho, if_neg hwho]
      exact ih hownRest hothersRest halike

end Outcome

end GlobalTransaction
