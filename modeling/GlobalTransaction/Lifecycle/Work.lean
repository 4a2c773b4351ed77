import GlobalTransaction.Lifecycle.Script
import GlobalTransaction.Table

/-!
# Work that can wait

A piece of work changes the world and comes to an end, fails, or waits. Work that
waits can be taken up again in a world that others have changed meanwhile.

Work can be put into a scope. The scope is the innermost one while that work goes on,
and only then: when the work ends, fails or waits, the scope around it is back.

## Main definitions

* `Lifecycle.Deed`, `Lifecycle.Place` — the innermost scope, and what has been done in it
* `Lifecycle.World` — a place, the hooks made so far, the calls, the journal
* `Lifecycle.Progress`, `Lifecycle.Work` — how far work has got; work on the world
* `Progress.toEnd` — work that is taken up again at once whenever it waits
* `Progress.rescued` — the same, with failures as ends
* `Progress.leave`, `Work.within` — work in a scope
* `Work.limited` — work that gets a number of turns
* `Work.inTurns` — several pieces of work that take turns

## Main results

* `Progress.andThen_assoc` — going on is associative
* `Progress.toEnd_leave` — leaving a scope commutes with going on to the end
-/

namespace GlobalTransaction.Lifecycle

/-- What is done with the list of a scope. -/
inductive Deed
  /-- A registration was tried, with this result. -/
  | registered (hook : Option Hook) (result : Except Error Unit)
  | cleared
  /-- The hooks were read. -/
  | found (hooks : List Hook)
  | called (hook : Hook) (point : Point)

/-- Where work goes on. -/
structure Place where
  /-- The list of the innermost scope. -/
  scope : Scope Hook
  /-- What has been done there so far. No work depends on it: it is a record, for what is to be said
  about the list. -/
  deeds : List Deed

/-- A place where nothing has been done yet. -/
def Place.opening (scope : Scope Hook) : Place := ⟨scope, []⟩

/-- What work acts on. -/
structure World extends Place where
  /-- The hooks made so far, under their names. -/
  named : Table String Hook
  /-- The calls of hooks, in order. -/
  calls : List String
  journal : Journal

namespace World

/-- The world at the beginning, outside every scope. -/
def start : World := ⟨.opening none, [], [], []⟩

/-- The world at another place. -/
def goTo (w : World) (place : Place) : World := { w with toPlace := place }

/-- The world with one more deed at its place. -/
def note (w : World) (deed : Deed) : World := { w with deeds := w.deeds ++ [deed] }

/-- The world with more events. -/
def report (w : World) (events : Journal) : World := { w with journal := w.journal ++ events }

end World

/-- How far work has got. -/
inductive Progress (α : Type)
  /-- It has ended with an answer. -/
  | done (world : World) (answer : α)
  /-- It has failed. -/
  | failed (world : World)
  /-- It calls hooks within hooks beyond the limit. -/
  | overrun
  /-- It waits. -/
  | paused (world : World) (rest : World → Progress α)

/-- Work on the world. -/
abbrev Work (α : Type) := World → Progress α

variable {α β γ : Type}

namespace Progress

/-- Goes on with further work where work ends. -/
def andThen : Progress α → (α → Work β) → Progress β
  | done w a, next => next a w
  | failed w, _ => failed w
  | overrun, _ => overrun
  | paused w rest, next => paused w fun w => (rest w).andThen next

/-- Goes on to the end: work that waits is taken up again at once. -/
def toEnd : Progress α → Progress α
  | done w a => done w a
  | failed w => failed w
  | overrun => overrun
  | paused w rest => (rest w).toEnd

/-- Goes on to the end, or to a failure, which is then over. -/
def rescued : Progress α → Progress (Option α)
  | done w a => done w (some a)
  | failed w => done w none
  | overrun => overrun
  | paused w rest => (rest w).rescued

/-- Leaves the scope in which work has gone on, for the place around it. When work that waits is
taken up again, it finds its own scope as it left it. -/
def leave (outer : Place) : Progress α → Progress α
  | done w a => done (w.goTo outer) a
  | failed w => failed (w.goTo outer)
  | overrun => overrun
  | paused w rest =>
    -- the place around the work may have changed by the time it goes on
    paused (w.goTo outer) fun later => (rest (later.goTo w.toPlace)).leave later.toPlace

/-- It does not matter whether work is first finished and then leaves its scope, or the other way
around. -/
theorem toEnd_leave (outer : Place) (p : Progress α) :
    (p.leave outer).toEnd = p.toEnd.leave outer := by
  induction p generalizing outer with
  | done | failed | overrun => rfl
  | paused w rest ih => exact ih w outer

end Progress

namespace Work

/-- Work that changes nothing. -/
def answer (a : α) : Work α := fun w => .done w a

/-- Work followed by further work. -/
def andThen (work : Work α) (next : α → Work β) : Work β := fun w => (work w).andThen next

/-- Work whose answer is changed. -/
def map (f : α → β) (work : Work α) : Work β := work.andThen fun a => answer (f a)

/-- Work that goes on to its end. -/
def toEnd (work : Work α) : Work α := fun w => (work w).toEnd

/-- Work that goes on in a scope. -/
def within (inner : Scope Hook) (work : Work α) : Work α :=
  fun w => (work (w.goTo (.opening inner))).leave w.toPlace

/-- Work that goes on to its end, and has no answer if it fails. -/
def rescued (work : Work α) : Work (Option α) := fun w => (work w).rescued

/-- Work that gets a number of turns, and is dropped when it still waits after them. -/
def limited : (turns : Nat) → Work α → Work (Option α)
  | 0, _ => answer none
  | turns + 1, work => fun w =>
    match work w with
    | .done w a => .done w (some a)
    | .failed w => .failed w
    | .overrun => .overrun
    | .paused w rest => limited turns rest w

/-! ### Turns -/

/-- A piece of work among several: it has ended, or waits for its turn. -/
inductive Share (α : Type)
  | ended (answer : α)
  | waiting (work : Work α)

/-- One round: every piece of work that has not ended gets a turn. -/
def round : List (Share α) → Work (List (Share α))
  | [] => answer []
  | .ended a :: shares => (round shares).map (.ended a :: ·)
  | .waiting work :: shares => fun w =>
    match work w with
    | .done w a => (round shares).map (.ended a :: ·) w
    | .failed w => .failed w
    | .overrun => .overrun
    | .paused w rest => (round shares).map (.waiting rest :: ·) w

/-- The answers of all pieces of work, if all have ended. -/
def answers? : List (Share α) → Option (List α)
  | [] => some []
  | .ended a :: shares => (answers? shares).map (a :: ·)
  | .waiting _ :: _ => none

/-- At most so many rounds, until all work has ended. -/
def rounds : Nat → List (Share α) → Work (List α)
  | limit, shares =>
    match answers? shares with
    | some as => answer as
    | none =>
      match limit with
      -- not reached as long as the limit exceeds the number of pauses
      | 0 => fun _ => .overrun
      | limit + 1 => (round shares).andThen (rounds limit)

/-- Several pieces of work take turns until all have ended. None of them waits more often than the
given number says. -/
def inTurns (pauses : Nat) (works : List (Work α)) : Work (List α) :=
  rounds (pauses + 1) (works.map .waiting)

end Work

theorem Progress.andThen_assoc (p : Progress α) (first : α → Work β) (second : β → Work γ) :
    (p.andThen first).andThen second = p.andThen fun a => (first a).andThen second := by
  induction p with
  | done | failed | overrun => rfl
  | paused w rest ih =>
    simp only [andThen, paused.injEq, true_and]
    funext later
    exact ih later

end GlobalTransaction.Lifecycle
