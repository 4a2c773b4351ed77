import GlobalTransaction.Proofs.Identity.Spelling
import GlobalTransaction.Proofs.Json.Records
import GlobalTransaction.Proofs.Time.Written
import GlobalTransaction.Saga.Run

/-!
# The record of a run as a text

The record of a run is kept as a text. Nothing of it is lost: its steps and its failure, what is
absent and what is there, every character of a text and every nanosecond of a time are read back.

## Main definitions

* `Run.HasPlainYears` — all times of a run lie in the years that are written with four digits

## Main results

* `Step.asStep_toJson`, `Run.asRun_toJson` — what was written is read back as a value
* `Run.record_kept` — and so it is as a text
-/

set_option autoImplicit false

namespace GlobalTransaction.Saga

open Json (Fits decodeText)

theorem Step.asStep_toJson {s : Step} (h : s.startedAt.HasPlainYear) : asStep s.toJson = .ok s := by
  have hstarted := Timestamp.asTimestamp_toJson h
  have hfits : ∀ m ∈
      [("id", Json.ofText s.id), ("name", .ofText s.name), ("state_type", s.kind.toJson),
        ("status", s.status.toJson), ("compensation_state", .ofText? s.undo),
        ("compensates", .ofText? s.compensates), ("for_update", .bool s.forUpdate),
        ("compensation_status", s.compensation.elim .null Status.toJson),
        ("started_at", s.startedAt.toJson)], Fits fields m := by
    simp only [List.forall_mem_cons]
    exact ⟨.of_read rfl (Json.asText_ofText _), .of_read rfl (Json.asText_ofText _),
      .of_read rfl (StepKind.asStepKind_toJson _), .of_read rfl (Status.asStatus_toJson _),
      .of_read rfl (Json.asOptional_ofText? _), .of_read rfl (Json.asOptional_ofText? _),
      .of_read rfl (Json.asBool_bool _), .of_read rfl (Status.asOptional_asStatus _),
      .of_read rfl hstarted, nofun⟩
  rw [asStep, toJson, Json.asRecord_ofFields (by simp) hfits]
  simp [Json.Record.required, Json.Record.optional, List.lookup_cons, hstarted, bind, Except.bind]
  rfl

namespace Run

/-- All times of a run lie in the years 0 to 9999. -/
structure HasPlainYears (run : Run) : Prop where
  startedAt : run.startedAt.HasPlainYear
  endedAt : ∀ t ∈ run.endedAt, t.HasPlainYear
  steps : ∀ s ∈ run.history, s.startedAt.HasPlainYear

variable {run : Run}

theorem asRun_toJson (h : run.HasPlainYears) : asRun run.toJson = .ok run := by
  have hid := run.id.asInstanceId_toJson
  have hhistory := Json.asList_map fun s hs => Step.asStep_toJson (h.steps s hs)
  have hstarted := Timestamp.asTimestamp_toJson h.startedAt
  have hended : Json.asOptional Timestamp.asTimestamp (run.endedAt.elim .null Timestamp.toJson) =
      .ok run.endedAt :=
    Json.asOptional_elim fun t ht => ⟨nofun, Timestamp.asTimestamp_toJson (h.endedAt t ht)⟩
  have hfits : ∀ m ∈
      [("id", run.id.toJson), ("machine_name", .ofText run.machineName),
        ("business_key", .ofText? run.businessKey),
        ("state_list", .array (run.history.map Step.toJson)),
        ("status", run.status.elim .null Status.toJson),
        ("compensation_status", run.compensation.elim .null Status.toJson),
        ("exception", run.exception.elim .null Failure.toJson),
        ("started_at", run.startedAt.toJson),
        ("ended_at", run.endedAt.elim .null Timestamp.toJson)], Fits fields m := by
    simp only [List.forall_mem_cons]
    -- name by name, in the order in which they are written
    exact ⟨.of_read rfl hid, .of_read rfl (Json.asText_ofText _),
      .of_read rfl (Json.asOptional_ofText? _), .of_read rfl hhistory,
      .of_read rfl (Status.asOptional_asStatus _), .of_read rfl (Status.asOptional_asStatus _),
      .of_read rfl (Failure.asOptional_asFailure _), .of_read rfl hstarted, .of_read rfl hended,
      nofun⟩
  rw [asRun, toJson, Json.asRecord_ofFields (by simp) hfits]
  simp [Json.Record.required, Json.Record.optional, List.lookup_cons, hid, hhistory, hstarted,
    hended, bind, Except.bind]
  rfl

/-- Take any run whose times lie in the years 0 to 9999. The text of its record denotes the same
run, with all of its fields, steps and its failure. If a text denotes such a run, however it is
spelled, then the run can be written and is read back as the text was. -/
theorem record_kept :
    (∀ run : Run, run.HasPlainYears → decodeText asRun run.toJson.text = some run) ∧
    ∀ (s : String) (run : Run), decodeText asRun s = some run → run.HasPlainYears →
      decodeText asRun run.toJson.text = decodeText asRun s := by
  have hkept : ∀ run : Run, run.HasPlainYears → decodeText asRun run.toJson.text = some run :=
    fun run h => Json.decodeText_text (asRun_toJson h)
  refine ⟨hkept, fun s run hs h => ?_⟩
  rw [hs]
  exact hkept run h

/-- A run has a step from a leap second in the last hour that can be written, and texts with quotes,
line breaks, a control and other characters. Another one is spelled without names of fields, with an
identifier in braces and with blanks, and its time with an offset. -/
theorem record_kept_with_leap_second :
    let first : Timestamp := ⟨.mk 0 2 29, .mk 0 0 0 1000⟩
    let last : Timestamp := ⟨.mk 9999 12 31, .mk 23 59 60 999999999⟩
    let debit : Step :=
      { Step.compensable "" "say \"debit\"\n" "\\undo\u0001\u2028" last with
        compensation := some .failed
        forUpdate := true }
    let run : Run :=
      { Run.start ⟨.replicate 16 171⟩ "\u00e9" first with
        history := [debit]
        exception := some ⟨none, "refused"⟩
        endedAt := some last }
    let spelled := "[\"\x7bABABABAB-ABAB-abab-abab-abababababab\x7d\", \"m\" , null, [], \"Running\",
      null, [null, \"\\u0041\"], \"1970-1-1 2:00:00.5+02:00\", null]"
    (run.HasPlainYears ∧ decodeText asRun run.toJson.text = some run) ∧
      ∃ other : Run, other.HasPlainYears ∧ decodeText asRun spelled = some other ∧
        other.id = run.id ∧ other.exception = some ⟨none, "A"⟩ ∧
        other.startedAt = ⟨.mk 1970 1 1, .mk 0 0 0 500000000⟩ ∧
        decodeText asRun other.toJson.text = decodeText asRun spelled := by
  intro first last debit run spelled
  have hyears : run.HasPlainYears := ⟨by decide, by decide, by decide⟩
  let other : Run :=
    { Run.start ⟨.replicate 16 171⟩ "m" ⟨.mk 1970 1 1, .mk 0 0 0 500000000⟩ with
      status := some .running
      exception := some ⟨none, "A"⟩ }
  have hspelled : decodeText asRun spelled = some other := by decide +kernel
  have hother : other.HasPlainYears := ⟨by decide, by decide, by decide⟩
  obtain ⟨hwritten, hread⟩ := record_kept
  exact ⟨⟨hyears, hwritten run hyears⟩, other, hother, hspelled, rfl, rfl, rfl,
    hread spelled other hspelled hother⟩

end Run

end GlobalTransaction.Saga
