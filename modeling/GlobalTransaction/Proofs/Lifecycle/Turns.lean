import GlobalTransaction.Proofs.Lifecycle.Moments
import GlobalTransaction.Proofs.Schedules

/-!
# Several pieces of work in turns

Several pieces of work go on in turns, from one wait to the next, and may do so with one list
between them. What they have done together is then what each of them has done, with the deeds of the
others in between.

## Main definitions

* `Lifecycle.Turns` — parts with the deeds of their own turns
* `Lifecycle.Joint` — what several pieces of work have done together

## Main results

* `Turns.turn` — one more turn
* `Work.performs_round` — a round, in which every piece of work gets a turn
* `Work.performs_inTurns` — pieces of work that take turns until all have ended
-/

set_option autoImplicit false

namespace GlobalTransaction.Lifecycle

variable {α β γ : Type}

/-- Several parts have done deeds in turns, and something holds of each part and its own deeds. -/
structure Turns (holds : Nat → List Deed → β → Prop) (schedule : Schedule Nat Deed)
    (parts : List β) : Prop where
  holds : ∀ i part, parts[i]? = some part → holds i (schedule.commandsOf i) part
  lt : ∀ turn ∈ schedule, turn.1 < parts.length

namespace Turns

variable {holds : Nat → List Deed → β → Prop} {schedule : Schedule Nat Deed} {parts : List β}

theorem map (h : Turns holds schedule parts) {holds' : Nat → List Deed → γ → Prop} {f : β → γ}
    (hmap : ∀ i deeds part, holds i deeds part → holds' i deeds (f part)) :
    Turns holds' schedule (parts.map f) := by
  refine ⟨fun i part hpart => ?_, fun turn hturn => ?_⟩
  · rw [List.getElem?_map] at hpart
    obtain ⟨before, hbefore, rfl⟩ := Option.map_eq_some_iff.1 hpart
    exact hmap i _ before (h.holds i before hbefore)
  · rw [List.length_map]
    exact h.lt turn hturn

/-- If no part has done anything, there was no turn. -/
theorem eq_nil (h : Turns holds schedule parts)
    (hnone : ∀ i deeds part, holds i deeds part → deeds = []) : schedule = [] := by
  refine List.eq_nil_iff_forall_not_mem.2 fun turn hturn => ?_
  have hpart := h.holds turn.1 _ (List.getElem?_eq_getElem (h.lt turn hturn))
  have hmem : turn.2 ∈ schedule.commandsOf turn.1 := Schedule.mem_commandsOf.2 hturn
  rw [hnone _ _ _ hpart] at hmem
  exact nomatch hmem

/-- One more turn, of one part. -/
theorem turn {front back : List β} {part part' : β}
    (h : Turns holds schedule (front ++ part :: back)) {more : List Deed}
    (hpart : holds front.length (schedule.commandsOf front.length ++ more) part') :
    Turns holds (schedule ++ .solo front.length more) (front ++ part' :: back) := by
  have hset : front ++ part' :: back = (front ++ part :: back).set front.length part' := by simp
  have hlt : front.length < (front ++ part :: back).length := by simp
  rw [hset]
  refine ⟨fun i other hother => ?_, fun turn hturn => ?_⟩
  · rw [Schedule.commandsOf_append, Schedule.commandsOf_solo]
    by_cases hi : front.length = i
    · subst hi
      rw [List.getElem?_set_self hlt] at hother
      obtain rfl := Option.some.inj hother
      rw [if_pos rfl]
      exact hpart
    · rw [List.getElem?_set_ne hi] at hother
      rw [if_neg hi, List.append_nil]
      exact h.holds i other hother
  · rw [List.length_set]
    rcases List.mem_append.1 hturn with hold | hnew
    · exact h.lt turn hold
    · obtain ⟨deed, -, rfl⟩ := List.mem_map.1 hnew
      exact hlt

end Turns

/-- The stage of several pieces of work that do not wait together: all have ended, or one of them
has failed. -/
inductive Stage.All : List (Stage α) → Stage (List α) → Prop
  | ended (answers : List α) : Stage.All (answers.map .ended) (.ended answers)
  | failed {stages : List (Stage α)} (h : .failed ∈ stages) : Stage.All stages .failed

/-- What several pieces of work have done that take turns: each its own deeds, between those of the
others. -/
def Joint (count : Nat) (spec : Nat → List Deed → Stage α → Prop) (deeds : List Deed)
    (stage : Stage (List α)) : Prop :=
  ∃ (schedule : Schedule Nat Deed) (stages : List (Stage α)), schedule.commands = deeds ∧
    stages.length = count ∧ Turns spec schedule stages ∧ Stage.All stages stage

namespace Work

variable {inScope : Bool} {spec : Nat → List Deed → Stage α → Prop} {schedule : Schedule Nat Deed}

/-- How far a piece of work has got among others. -/
def Share.stage : Share α → Stage α
  | .ended a => .ended a
  | .waiting _ => .waiting

/-- A piece of work has done its deeds so far as it should, and so it does what is left. -/
def Share.Performs (inScope : Bool) (spec : List Deed → Stage α → Prop) (own : List Deed) :
    Share α → Prop
  | .ended a => spec own (.ended a)
  | .waiting work =>
    spec own .waiting ∧ Work.Performs True inScope work fun more => spec (own ++ more)

theorem Share.Performs.stage {spec : List Deed → Stage α → Prop} {own : List Deed}
    {share : Share α} (h : share.Performs inScope spec own) : spec own share.stage := by
  cases share with
  | ended a => exact h
  | waiting work => exact h.1

/-- Pieces of work among others, each with the deeds of its turns. -/
def Under (inScope : Bool) (spec : Nat → List Deed → Stage α → Prop)
    (schedule : Schedule Nat Deed) (shares : List (Share α)) : Prop :=
  Turns (fun i own share => Share.Performs inScope (spec i) own share) schedule shares

theorem Under.stages {shares : List (Share α)} (h : Under inScope spec schedule shares) :
    Turns spec schedule (shares.map Share.stage) :=
  Turns.map h fun _ _ _ hshare => hshare.stage

/-- What a round comes to for the shares that are left in it: all have had their turn, or one has
failed. -/
inductive Comes (inScope : Bool) (spec : Nat → List Deed → Stage α → Prop)
    (schedule : Schedule Nat Deed) (front : List (Share α)) (count : Nat) :
    List Deed → Stage (List (Share α)) → Prop
  | ended {next : Schedule Nat Deed} {deeds : List Deed} {later : List (Share α)}
      (hdeeds : next.commands = deeds) (hlength : later.length = count)
      (h : Under inScope spec (schedule ++ next) (front ++ later)) :
      Comes inScope spec schedule front count deeds (.ended later)
  | failed {next : Schedule Nat Deed} {deeds : List Deed} {stages : List (Stage α)}
      (hdeeds : next.commands = deeds) (hlength : stages.length = front.length + count)
      (h : Turns spec (schedule ++ next) stages) (hfailed : .failed ∈ stages) :
      Comes inScope spec schedule front count deeds .failed

/-- The rest of a round, behind the turn of one share. -/
theorem Comes.behind {next : Schedule Nat Deed} {front : List (Share α)} {share : Share α}
    {count : Nat} {more : List Deed} {stage : Stage (List (Share α))}
    (h : Comes inScope spec (schedule ++ next) (front ++ [share]) count more stage) :
    Comes inScope spec schedule front (count + 1) (next.commands ++ more)
      (stage.map (share :: ·)) := by
  cases h with
  | @ended last _ later hdeeds hlength h =>
    have hboth : (next ++ last).commands = next.commands ++ more := by
      rw [Schedule.commands_append, hdeeds]
    refine .ended hboth (congrArg (· + 1) hlength) ?_
    simpa only [List.append_assoc, List.singleton_append] using h
  | @failed last _ stages hdeeds hlength h hfailed =>
    have hboth : (next ++ last).commands = next.commands ++ more := by
      rw [Schedule.commands_append, hdeeds]
    refine .failed hboth ?_ ?_ hfailed
    · rw [hlength, List.length_append, List.length_singleton]
      omega
    · simpa only [List.append_assoc] using h

theorem performs_round (front : List (Share α)) {shares : List (Share α)}
    (h : Under inScope spec schedule (front ++ shares)) :
    (round shares).Performs True inScope
      (Comes inScope spec schedule front shares.length) := by
  induction shares generalizing front schedule with
  | nil =>
    have hnone : Schedule.commands ([] : Schedule Nat Deed) = [] := rfl
    refine performs_answer (.ended hnone rfl ?_)
    rw [List.append_nil]
    exact h
  | cons share shares ih =>
    -- the round of the others, with what this share has become in front of them
    have hrest (share' : Share α) (next : Schedule Nat Deed)
        (h' : Under inScope spec (schedule ++ next) (front ++ share' :: shares)) :
        ((round shares).map (share' :: ·)).Performs True inScope fun more =>
          Comes inScope spec schedule front (shares.length + 1) (next.commands ++ more) := by
      rw [← List.singleton_append, ← List.append_assoc] at h'
      exact (ih _ h').map fun _ _ => Comes.behind
    cases share with
    | ended a =>
      refine hrest (.ended a) [] ?_
      rw [List.append_nil]
      exact h
    | waiting work =>
      obtain ⟨-, hwork⟩ := h.holds front.length (.waiting work) (by simp)
      intro w hw
      have hturn := hwork w hw
      simp only [round]
      generalize work w = p at hturn ⊢
      cases hturn with
      | @done _ v a deeds _ hbecomes hspec =>
        have hround := hrest (.ended a) (.solo front.length deeds) (h.turn hspec)
        rw [Schedule.commands_solo] at hround
        exact .behind v hbecomes (hround v (hbecomes.isActive_eq.trans hw))
      | @failed _ v deeds _ hbecomes hspec =>
        have hstages := h.stages
        rw [List.map_append, List.map_cons] at hstages
        rw [← List.length_map Share.stage] at hspec
        have hfailure : Turns spec (schedule ++ .solo (front.map Share.stage).length deeds)
            (front.map Share.stage ++ .failed :: shares.map Share.stage) := hstages.turn hspec
        refine .failed hbecomes (.failed (Schedule.commands_solo _ deeds) ?_ hfailure ?_)
        · simp
        · exact List.mem_append_right _ List.mem_cons_self
      | overrun h => exact .overrun h
      | @paused _ v rest deeds _ hbecomes hspec hleft =>
        have hv := hbecomes.isActive_eq.trans hw
        have hwaits : Share.Performs inScope (spec front.length)
            (schedule.commandsOf front.length ++ deeds) (.waiting rest) := by
          refine ⟨hspec, fun later hlater => ?_⟩
          simpa only [List.append_assoc] using hleft later (hlater.trans hv.symm)
        have hround := hrest (.waiting rest) (.solo front.length deeds) (h.turn hwaits)
        rw [Schedule.commands_solo] at hround
        exact .behind v hbecomes (hround v hv)

theorem eq_map_of_answers? {shares : List (Share α)} {as : List α} (h : answers? shares = some as) :
    shares.map Share.stage = as.map .ended := by
  induction shares generalizing as with
  | nil =>
    obtain rfl := Option.some.inj h
    rfl
  | cons share shares ih =>
    cases share with
    | ended a =>
      obtain ⟨rest, hrest, rfl⟩ := Option.map_eq_some_iff.1 h
      rw [List.map_cons, List.map_cons, ih hrest]
      rfl
    | waiting work => exact nomatch h

/-- When no share is left that waits, the answers are those of all. -/
theorem Under.performs_answer {shares : List (Share α)} (h : Under inScope spec schedule shares)
    {as : List α} (has : answers? shares = some as) :
    (answer as).Performs True inScope fun more =>
      Joint shares.length spec (schedule.commands ++ more) := by
  refine Work.performs_answer ?_
  have hstages := h.stages
  have hlength : (as.map Stage.ended).length = shares.length := by
    rw [← eq_map_of_answers? has, List.length_map]
  rw [eq_map_of_answers? has] at hstages
  exact ⟨schedule, _, (List.append_nil _).symm, hlength, hstages, .ended as⟩

theorem performs_rounds (limit : Nat) {shares : List (Share α)}
    (h : Under inScope spec schedule shares) :
    (rounds limit shares).Performs True inScope fun more =>
      Joint shares.length spec (schedule.commands ++ more) := by
  induction limit generalizing shares schedule with
  | zero =>
    rw [rounds]
    split
    · exact h.performs_answer ‹_›
    · exact fun _ _ => .overrun trivial
  | succ limit ih =>
    rw [rounds]
    split
    · exact h.performs_answer ‹_›
    · refine (performs_round [] h).andThen ?_ ?_ ?_
      · intro deeds later hround
        cases hround with
        | ended hdeeds hlength hlater =>
          have hrest := ih hlater
          simpa only [Schedule.commands_append, hdeeds, List.append_assoc, List.nil_append, hlength]
            using hrest
      · intro deeds hround
        cases hround with
        | failed hdeeds hlength hstages hfailed =>
          refine ⟨_, _, ?_, ?_, hstages, .failed hfailed⟩
          · rw [Schedule.commands_append, hdeeds]
          · rw [hlength, List.length_nil, Nat.zero_add]
      -- a round does not wait
      · rintro deeds ⟨⟩

/-- Pieces of work that take turns perform what each of them does. -/
theorem performs_inTurns (pauses : Nat) {works : List (Work α)}
    (hbegin : ∀ i work, works[i]? = some work → spec i [] .waiting)
    (h : ∀ (i : Nat) (work : Work α), works[i]? = some work →
      Work.Performs True inScope work (spec i)) :
    (inTurns pauses works).Performs True inScope (Joint works.length spec) := by
  have hunder : Under inScope spec [] (works.map .waiting) := by
    refine ⟨fun i share hshare => ?_, fun _ hturn => nomatch hturn⟩
    rw [List.getElem?_map] at hshare
    obtain ⟨work, hwork, rfl⟩ := Option.map_eq_some_iff.1 hshare
    exact ⟨hbegin i work hwork, h i work hwork⟩
  have hrounds := performs_rounds (pauses + 1) hunder
  rw [List.length_map] at hrounds
  exact hrounds

end Work

end GlobalTransaction.Lifecycle
