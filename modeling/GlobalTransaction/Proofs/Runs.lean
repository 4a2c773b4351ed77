import GlobalTransaction.Journal
import Mathlib.Data.List.Forall2

/-!
# Runs whose commands are admitted

Many facts hold of runs in which each command meets a condition on the state that it finds.
What such a command keeps, such a run keeps. The fact may speak of the commands that were
carried out before, together with their answers.

## Main definitions

* `Outcome.notes` — what is noted about the commands of a run and the states that they find
* `Outcome.replies` — the commands of a run with their answers
* `Outcome.Admits` — every command of a run meets a condition on the state that it finds

## Main results

* `Outcome.run_admitted_induction` — what admitted commands keep holds behind a run
* `Outcome.run_notes_induction`, `Outcome.run_replies_induction` — the same of facts about what has
  been noted, and about the commands so far and their answers
* `Outcome.forall_prefix_iff_admits` — a fact holds at every moment of a run exactly if each
  command keeps it
* `Outcome.replies_filter` — commands that change nothing that counts can be left out of a run
* `Outcome.run_related` — what the same commands keep between two states holds behind two runs
-/

namespace GlobalTransaction.Outcome

variable {σ κ α : Type} (step : σ → κ → Outcome σ α)

/-- What is noted about the commands of a run, about each with the state that it finds, the first
one first. -/
def notes {ν : Type} (note : σ → κ → ν) (start : σ) : List κ → List ν
  | [] => []
  | command :: commands => note start command :: notes note (step start command).state commands

/-- The commands of a run with their answers, the first one first. -/
def replies (start : σ) : List κ → List (κ × α)
  | [] => []
  | command :: commands =>
    let here := step start command
    (command, here.answer) :: replies here.state commands

/-- Every command of a run meets a condition on the state that it finds. -/
def Admits (allowed : σ → κ → Prop) : σ → List κ → Prop
  | _, [] => True
  | start, command :: commands =>
    allowed start command ∧ Admits allowed (step start command).state commands

variable {step} {allowed : σ → κ → Prop} {start : σ}

/-- A condition on the commands alone is met in any order. -/
theorem Admits.of_forall_mem {commands : List κ} {condition : κ → Prop}
    (h : ∀ command ∈ commands, condition command) (start : σ) :
    Admits step (fun _ command => condition command) start commands := by
  induction commands generalizing start with
  | nil => trivial
  | cons command commands ih =>
    obtain ⟨hhere, hrest⟩ := List.forall_mem_cons.1 h
    exact ⟨hhere, ih hrest _⟩

/-- Where nothing is asked of commands, every run meets the condition. -/
theorem admits_all (start : σ) (commands : List κ) :
    Admits step (fun _ _ => True) start commands :=
  .of_forall_mem (fun _ _ => trivial) start

theorem state_run_append (start : σ) (first second : List κ) :
    (run step start (first ++ second)).state =
      (run step (run step start first).state second).state := by
  rw [run_append]

theorem run_map {κ' : Type} (f : κ' → κ) (start : σ) (commands : List κ') :
    run step start (commands.map f) = run (fun s command => step s (f command)) start commands := by
  induction commands generalizing start with
  | nil => rfl
  | cons command commands ih => rw [List.map_cons, run, run, ih]

/-- A run over two sequences meets the condition if both parts of it do. -/
theorem admits_append {first second : List κ} :
    Admits step allowed start (first ++ second) ↔
      Admits step allowed start first ∧
        Admits step allowed (run step start first).state second := by
  induction first generalizing start with
  | nil => exact ⟨fun h => ⟨trivial, h⟩, And.right⟩
  | cons command first ih => exact (and_congr_right fun _ => ih).trans and_assoc.symm

/-- The fact is carried along with the notes so far, so that the induction on the rest of the run
can start from any of them. -/
private theorem notes_induction_from {ν : Type} {note : σ → κ → ν} {P : List ν → σ → Prop}
    (hstep : ∀ past s command, allowed s command → P past s →
      P (past ++ [note s command]) (step s command).state)
    {commands : List κ} (hrun : Admits step allowed start commands) {past : List ν}
    (h : P past start) :
    P (past ++ notes step note start commands) (run step start commands).state := by
  induction commands generalizing start past with
  | nil =>
    rw [notes, List.append_nil]
    exact h
  | cons command commands ih =>
    -- the first note joins the past, and the rest of the run starts behind it
    have hhere := hstep past start command hrun.1 h
    have hrest := ih hrun.2 hhere
    rw [List.append_assoc] at hrest
    exact hrest

/-- A fact about what has been noted and the state that every admitted command keeps holds behind
every admitted run. -/
theorem run_notes_induction {ν : Type} {note : σ → κ → ν} {P : List ν → σ → Prop} (h : P [] start)
    (hstep : ∀ past s command, allowed s command → P past s →
      P (past ++ [note s command]) (step s command).state)
    {commands : List κ} (hrun : Admits step allowed start commands) :
    P (notes step note start commands) (run step start commands).state :=
  notes_induction_from hstep hrun h

theorem replies_eq_notes (start : σ) (commands : List κ) :
    replies step start commands =
      notes step (fun s command => (command, (step s command).answer)) start commands := by
  induction commands generalizing start with
  | nil => rfl
  | cons command commands ih => exact congrArg (List.cons _) (ih _)

/-- A fact about the past of a run and its state that every admitted command keeps holds behind
every admitted run. -/
theorem run_replies_induction {P : List (κ × α) → σ → Prop} (h : P [] start)
    (hstep : ∀ past s command, allowed s command → P past s →
      P (past ++ [(command, (step s command).answer)]) (step s command).state)
    {commands : List κ} (hrun : Admits step allowed start commands) :
    P (replies step start commands) (run step start commands).state := by
  rw [replies_eq_notes]
  exact run_notes_induction h hstep hrun

/-- A fact about the state that every admitted command keeps holds behind every admitted run. -/
theorem run_admitted_induction {P : σ → Prop} (h : P start)
    (hstep : ∀ s command, allowed s command → P s → P (step s command).state)
    {commands : List κ} (hrun : Admits step allowed start commands) :
    P (run step start commands).state :=
  run_replies_induction (P := fun _ s => P s) h (fun _ => hstep) hrun

/-- Let a condition say which admitted commands keep a fact about the state. Then the fact holds
at every moment of a run exactly if each command of the run meets the condition. -/
theorem forall_prefix_iff_admits {P : σ → Prop} {keeps : σ → κ → Prop} (h : P start)
    (hstep : ∀ s command, allowed s command → P s → (P (step s command).state ↔ keeps s command))
    {commands : List κ} (hrun : Admits step allowed start commands) :
    (∀ earlier, earlier <+: commands → P (run step start earlier).state) ↔
      Admits step keeps start commands := by
  induction commands generalizing start with
  | nil =>
    refine iff_of_true ?_ trivial
    intro earlier hearlier
    rw [List.prefix_nil.1 hearlier]
    exact h
  | cons command commands ih =>
    have hhere := hstep start command hrun.1 h
    constructor
    · intro hall
      -- the first command keeps the fact, as it holds behind that command alone
      have hkept : P (step start command).state :=
        hall [command] (List.cons_prefix_cons.2 ⟨rfl, List.nil_prefix⟩)
      refine ⟨hhere.1 hkept, (ih hkept hrun.2).1 fun earlier hearlier => ?_⟩
      exact hall (command :: earlier) (List.cons_prefix_cons.2 ⟨rfl, hearlier⟩)
    · rintro ⟨hkeeps, hrest⟩ earlier hearlier
      cases earlier with
      | nil => exact h
      | cons first earlier =>
        obtain ⟨rfl, hprefix⟩ := List.cons_prefix_cons.1 hearlier
        exact (ih (hhere.2 hkeeps) hrun.2).2 hrest earlier hprefix

/-- Two runs side by side, of which the second leaves some commands out. If those report nothing
and leave the states alike, and all others answer and report alike, then the runs differ in
nothing but the commands that are left out. -/
theorem replies_filter {alike : σ → σ → Prop} {keep : κ → Bool}
    (hkeep : ∀ s other command, keep command = true → alike s other →
      (step s command).answer = (step other command).answer ∧
        (step s command).journal = (step other command).journal ∧
        alike (step s command).state (step other command).state)
    (hskip : ∀ s other command, keep command = false → alike s other →
      (step s command).journal = [] ∧ alike (step s command).state other)
    {other : σ} (h : alike start other) (commands : List κ) :
    ((replies step start commands).filter fun reply => keep reply.1) =
        replies step other (commands.filter keep) ∧
      (run step start commands).journal = (run step other (commands.filter keep)).journal := by
  induction commands generalizing start other with
  | nil => exact ⟨rfl, rfl⟩
  | cons command commands ih =>
    cases hkept : keep command with
    | false =>
      obtain ⟨hjournal, halike⟩ := hskip start other command hkept h
      obtain ⟨hreplies, hrest⟩ := ih halike
      rw [List.filter_cons_of_neg (by simp [hkept]), replies,
        List.filter_cons_of_neg (by simp [hkept]), run, hjournal, List.nil_append]
      exact ⟨hreplies, hrest⟩
    | true =>
      obtain ⟨hanswer, hjournal, halike⟩ := hkeep start other command hkept h
      obtain ⟨hreplies, hrest⟩ := ih halike
      rw [List.filter_cons_of_pos hkept, replies, List.filter_cons_of_pos (by simp [hkept]),
        replies, run, run, hanswer, hjournal, hreplies, hrest]
      exact ⟨rfl, rfl⟩

/-- Two runs side by side over the same commands. If every command keeps a relation between the
states, with answers that are related too, then so are all answers of the runs, one by one, and
the states behind them. -/
theorem run_related {τ β : Type} {other : τ → κ → Outcome τ β} {related : σ → τ → Prop}
    {answers : α → β → Prop}
    (hstep : ∀ s t command, related s t →
      answers (step s command).answer (other t command).answer ∧
        related (step s command).state (other t command).state)
    {start' : τ} (h : related start start') (commands : List κ) :
    List.Forall₂ answers (run step start commands).answer (run other start' commands).answer ∧
      related (run step start commands).state (run other start' commands).state := by
  induction commands generalizing start start' with
  | nil => exact ⟨.nil, h⟩
  | cons command commands ih =>
    obtain ⟨hhere, hbehind⟩ := hstep start start' command h
    obtain ⟨hrest, hend⟩ := ih hbehind
    exact ⟨.cons hhere hrest, hend⟩

end GlobalTransaction.Outcome
