import GlobalTransaction.Saga.Trigger

/-!
# Sessions

Contexts with names that work on one state log. A session has a clock, which moves only
when it is told to, and one trigger whose terminator has a number of listeners.

## Main definitions

* `Saga.Session` — contexts, state log, clock, and what listeners were told
* `Session.Command`, `Session.step` — what can be done in a session
-/

namespace GlobalTransaction.Saga

/-- Contexts that share a state log. -/
structure Session where
  policy : Policy
  /-- The number of listeners. -/
  listeners : Nat
  /-- The milliseconds since the beginning of 1970. -/
  clock : Nat
  log : SwitchedLog
  contexts : Table String Context
  /-- What listeners were told, in order. -/
  notices : List Notice

namespace Session

/-- A session without contexts, over an empty log. -/
def start (policy : Policy) (listeners clock : Nat) : Session :=
  ⟨policy, listeners, clock, .empty, [], []⟩

/-- The time on the clock. -/
def now (s : Session) : Timestamp := .ofUnixMillis s.clock

/-- The terminator of the session. -/
def terminator (s : Session) : Terminator SwitchedLog := ⟨SwitchedLog.stateLog, s.listeners⟩

/-- The trigger of the session. -/
def trigger (s : Session) : Trigger SwitchedLog := ⟨SwitchedLog.stateLog, s.policy, s.terminator⟩

/-- The context of a name. -/
def context? (s : Session) (name : String) : Option Context := s.contexts.lookup name

/-- The session with a context under a name. -/
def withContext (s : Session) (name : String) (c : Context) : Session :=
  { s with contexts := s.contexts.insert name c }

/-- What can be done in a session. -/
inductive Command
  /-- A context is made for a run. -/
  | takeUp (name : String) (run : Run)
  /-- A context is made for the record of a finished run, if there is one. -/
  | recover (name : String) (id : InstanceId)
  /-- A context is given up, and its run taken out. -/
  | giveUp (name : String)
  /-- A step of a run is recorded in the log. -/
  | record (id : InstanceId) (s : Step)
  /-- The history of a run is read from the log. -/
  | history (id : InstanceId)
  /-- The record of a finished run is looked up. -/
  | finished (id : InstanceId)
  /-- The log is made to fail, or not. -/
  | refuse (query write : Bool)
  /-- Some milliseconds pass. -/
  | wait (milliseconds : Nat)
  /-- It is decided about the run of a context. -/
  | fire (name : String)
  /-- The run of a context is brought to its end, whatever is left to undo. -/
  | finish (name : String)
  | edit (name : String) (change : Context.Edit)

/-- The answers to commands. -/
inductive Answer
  | done
  /-- No context has that name. -/
  | absent
  | found (value : Bool)
  | history (result : Except Error (List Step))
  | run (run : Option Run)
  | decided (result : Except Error Decision)
  | finished (result : Except Error Unit)
  | edited (answer : Context.Answer)

/-- The session behind an effect on the context of a name and on the log. -/
def apply {α : Type} (s : Session) (name : String) (e : Effect SwitchedLog α)
    (answer : Except Error α → Answer) : Outcome Session Answer where
  state := { s.withContext name e.context with log := e.log, notices := s.notices ++ e.notices }
  answer := answer e.answer
  journal := e.journal

/-- The effect of one command. -/
def step (s : Session) : Command → Outcome Session Answer
  | .takeUp name run => { state := s.withContext name (.ofRun run), answer := .done }
  | .recover name id =>
    match s.log.log.finished id with
    | some run => { state := s.withContext name (.ofRun run), answer := .found true }
    | none => { state := s, answer := .found false }
  | .giveUp name =>
    { state := { s with contexts := s.contexts.erase name }
      answer := .run ((s.context? name).map Context.run) }
  | .record id step =>
    { state := { s with log := { s.log with log := s.log.log.record id step } }, answer := .done }
  | .history id => { state := s, answer := .history ((s.log.history id).mapError .store) }
  | .finished id => { state := s, answer := .run (s.log.log.finished id) }
  | .refuse query write =>
    { state := { s with log := { s.log with queryRefused := query, writeRefused := write } }
      answer := .done }
  | .wait milliseconds => { state := { s with clock := s.clock + milliseconds }, answer := .done }
  | .fire name =>
    match s.context? name with
    | some c => s.apply name (s.trigger.fire s.now c s.log) .decided
    | none => { state := s, answer := .absent }
  | .finish name =>
    match s.context? name with
    | some c => s.apply name (s.terminator.finish s.now c s.log) .finished
    | none => { state := s, answer := .absent }
  | .edit name change =>
    match s.context? name with
    | some c =>
      let (c, answer) := c.edit change
      { state := s.withContext name c, answer := .edited answer }
    | none => { state := s, answer := .absent }

/-- The effect of commands that follow each other. -/
abbrev run : Session → List Command → Outcome Session (List Answer) := Outcome.run step

end Session

end GlobalTransaction.Saga
