import GlobalTransaction.Branch.Response
import GlobalTransaction.Proofs.Json.Records

/-!
# Answers are read by the names of their members

The members of the envelope of an answer are told apart from the others only once all of them have
been seen. What is read is the same as if each value was looked up under its name: neither the order
of the members nor what else there is makes a difference, and no name may come twice.

## Main definitions

* `EndResponse.names` — the names of the members of an answer
* `EndResponse.written` — the members of an answer that is written
* `EndResponse.Has`, `EndResponse.Spells` — an object has what an answer needs, under its names

## Main results

* `EndResponse.asEndResponse_eq_ok_iff` — which answer is read from an object
* `EndResponse.Spells.of_perm` — neither order nor other members make a difference
* `EndResponse.not_read_of_not_isStorable` — the other values have to be such that they can be kept
  aside
* `EndResponse.read_by_name` — what was written is read in any order and among other members, and
  nothing is read from repeated, missing or nameless members
-/

set_option autoImplicit false

namespace GlobalTransaction.Branch

open Json (bind_eq_ok_iff decodeText fieldOf? knownOf)

@[simp] theorem ResultCode.asKeptResultCode_toJson (c : ResultCode) :
    asKeptResultCode c.toJson = .ok c := by
  cases c <;> rfl

namespace EndResponse

variable {members others : List (Literal × Json)} {r : EndResponse}

/-! ### What is read from an object -/

/-- The names of the members of an answer. -/
def names : List String := ["resultCode", "msg", "xid", "branchId", "branchStatus"]

/-- The fields of the envelope, with values that were kept aside. -/
abbrev keptFields : List Json.Field := Envelope.fieldsWith ResultCode.asKeptResultCode

theorem names_eq : names = (keptFields ++ ownFields).map Json.Field.name := rfl

/-- The name belongs to the answer itself, not to its envelope. -/
def isOwn (name : Literal) : Bool := ownFields.any fun f => Literal.text f.name = name

theorem keptMembers_eq_ok_iff {kept : List (Literal × Json)} :
    keptMembers members = .ok kept ↔
      (∀ m ∈ members, isOwn m.1 = false → m.2.isStorable = true) ∧
        kept = members.filter fun m => !isOwn m.1 := by
  change (if (members.filter fun m => !isOwn m.1).all (fun m => m.2.isStorable) then
    Except.ok (members.filter fun m => !isOwn m.1) else _) = .ok kept ↔ _
  have hall : (members.filter fun m => !isOwn m.1).all (fun m => m.2.isStorable) = true ↔
      ∀ m ∈ members, isOwn m.1 = false → m.2.isStorable = true := by
    simp only [List.all_eq_true, List.mem_filter, Bool.not_eq_true', and_imp]
  split
  case isTrue h => rw [Except.ok.injEq, eq_comm, and_iff_right (hall.1 h)]
  case isFalse h =>
    have hnot := mt hall.2 h
    constructor
    · exact nofun
    · exact fun hkept => absurd hkept.1 hnot

/-- Under a name there is a value that is read so. -/
def Has {α : Type} (members : List (Literal × Json)) (name : String) (decode : Json.Decoder α)
    (a : α) : Prop :=
  ∃ value, members.lookup (.text name) = some value ∧ decode value = .ok a

/-- The members have a field once at most, with a value that it accepts. -/
def Admits (members : List (Literal × Json)) (f : Json.Field) : Prop :=
  (members.map Prod.fst).count (.text f.name) ≤ 1 ∧
    ∀ value, members.lookup (.text f.name) = some value → f.check value = .ok ()

section Has

variable {α : Type} {name : String} {decode : Json.Decoder α} {a : α}

theorem Has.congr (h : Has others name decode a)
    (hlookup : members.lookup (.text name) = others.lookup (.text name)) :
    Has members name decode a := by
  rw [Has, hlookup]
  exact h

theorem Has.mem (h : Has members name decode a) : .text name ∈ members.map Prod.fst := by
  obtain ⟨value, hvalue, -⟩ := h
  by_contra hmissing
  exact nomatch hvalue.symm.trans (Table.lookup_eq_none_iff.2 hmissing)

theorem Has.admits (h : Has members name decode a)
    (hcount : (members.map Prod.fst).count (.text name) ≤ 1) :
    Admits members (Json.field name decode) := by
  refine ⟨hcount, fun value hvalue => ?_⟩
  obtain ⟨found, hfound, hread⟩ := h
  obtain rfl := Option.some.inj (hfound.symm.trans hvalue)
  exact Json.check_field_eq_ok_iff.2 ⟨a, hread⟩

end Has

/-- An object has what an answer needs, under the names of its members. Values that do not belong to
the answer itself can be kept aside, whatever their names are. -/
structure Spells (members : List (Literal × Json)) (r : EndResponse) : Prop where
  ne_unpaired : ∀ m ∈ members, m.1 ≠ .unpaired
  isStorable : ∀ m ∈ members, isOwn m.1 = false → m.2.isStorable = true
  count_le_one : ∀ name ∈ names, (members.map Prod.fst).count (.text name) ≤ 1
  resultCode : Has members "resultCode" ResultCode.asKeptResultCode r.envelope.resultCode
  msg : (members.lookup (.text "msg")).elim (.ok none) (Json.asOptional Json.asText) =
    .ok r.envelope.msg
  xid : Has members "xid" Xid.asXid r.xid
  branchId : Has members "branchId" BranchId.asBranchId r.branchId
  branchStatus : Has members "branchStatus" Status.asStatus r.branchStatus

/-- The fields of both parts have what they need in an object that spells an answer. -/
theorem Spells.admits (h : Spells members r) : ∀ f ∈ keptFields ++ ownFields, Admits members f := by
  have hmsg : Admits members (Json.field "msg" (Json.asOptional Json.asText)) := by
    refine ⟨h.count_le_one _ (by decide), fun value hvalue => ?_⟩
    have hread := h.msg
    rw [show members.lookup (.text "msg") = some value from hvalue] at hread
    exact Json.check_field_eq_ok_iff.2 ⟨_, hread⟩
  intro f hf
  simp only [keptFields, Envelope.fieldsWith, ownFields, List.cons_append, List.nil_append,
    List.mem_cons, List.not_mem_nil, or_false] at hf
  rcases hf with rfl | rfl | rfl | rfl | rfl
  · exact h.resultCode.admits (h.count_le_one _ (by decide))
  · exact hmsg
  · exact h.xid.admits (h.count_le_one _ (by decide))
  · exact h.branchId.admits (h.count_le_one _ (by decide))
  · exact h.branchStatus.admits (h.count_le_one _ (by decide))

/-- No name of an answer comes twice when both parts accept what they find. -/
theorem count_le_one_of_admits (h : ∀ f ∈ keptFields ++ ownFields, Admits members f) :
    ∀ name ∈ names, (members.map Prod.fst).count (.text name) ≤ 1 := by
  rw [names_eq]
  intro name hname
  obtain ⟨f, hf, rfl⟩ := List.mem_map.1 hname
  exact (h f hf).1

theorem lookup_kept {name : String} (h : isOwn (.text name) = false) :
    List.lookup (.text name) (members.filter fun m => !isOwn m.1) = members.lookup (.text name) :=
  Table.lookup_filter (fun name => !isOwn name) (by simp [h]) members

/-- The members of the envelope are still there after those of the answer itself are left out. -/
theorem admits_kept {f : Json.Field} (h : f ∈ keptFields) :
    Admits (members.filter fun m => !isOwn m.1) f ↔ Admits members f := by
  have hown : ∀ f ∈ keptFields, isOwn (.text f.name) = false := by decide
  have hcount := Table.count_keys_filter (fun name => !isOwn name)
    (by simp [hown f h] : (!isOwn (.text f.name)) = true) members
  rw [Admits, Admits, lookup_kept (hown f h)]
  exact and_congr_left fun _ => hcount ▸ Iff.rfl

/-- What is read when both parts have been told apart. -/
theorem ofRecord_eq_ok_iff {asCode : Json.Decoder ResultCode} {record : Json.Record}
    {e : Envelope} :
    Envelope.ofRecord asCode record = .ok e ↔
      (∃ value, record.lookup "resultCode" = some value ∧ asCode value = .ok e.resultCode) ∧
        (record.lookup "msg").elim (.ok none) (Json.asOptional Json.asText) = .ok e.msg := by
  simp only [Envelope.ofRecord, bind_eq_ok_iff, Json.Record.required_eq_ok_iff,
    Json.Record.optional_eq]
  constructor
  · rintro ⟨resultCode, hresultCode, msg, hmsg, heq⟩
    obtain rfl := Except.ok.inj heq
    exact ⟨hresultCode, hmsg⟩
  · rintro ⟨hresultCode, hmsg⟩
    exact ⟨_, hresultCode, _, hmsg, rfl⟩

/-- An answer is read from an object if each of its members is found under its name. -/
theorem asEndResponse_eq_ok_iff : asEndResponse (.object members) = .ok r ↔ Spells members r := by
  -- either part finds its values where the whole object has them
  have hown {name : String} {f : Json.Field} (h : fieldOf? ownFields name = some f) :=
    Json.lookup_knownOf h members
  have hkept {name : String} {f : Json.Field} (h : fieldOf? keptFields name = some f)
      (hname : isOwn (.text name) = false) :=
    (Json.lookup_knownOf h (members.filter fun m => !isOwn m.1)).trans (lookup_kept hname)
  simp only [asEndResponse, bind_eq_ok_iff, keptMembers_eq_ok_iff, ofRecord_eq_ok_iff,
    Json.knownMembers_eq_ok_iff_forall_field (show (ownFields.map _).Nodup by decide),
    Json.knownMembers_eq_ok_iff_forall_field (show (keptFields.map _).Nodup by decide),
    Json.Record.required_eq_ok_iff]
  constructor
  · rintro ⟨_, ⟨rfl, hnames, hownFields⟩, _, ⟨hstorable, rfl⟩, _, ⟨rfl, -, hkeptFields⟩, xid, hxid,
      branchId, hbranchId, branchStatus, hbranchStatus, e, ⟨hresultCode, hmsg⟩, heq⟩
    obtain rfl := Except.ok.inj heq
    have hadmits : ∀ f ∈ keptFields ++ ownFields, Admits members f :=
      List.forall_mem_append.2 ⟨fun f hf => (admits_kept hf).1 (hkeptFields f hf), hownFields⟩
    rw [hown rfl] at hxid hbranchId hbranchStatus
    rw [hkept rfl (by decide)] at hresultCode hmsg
    exact ⟨hnames, hstorable, count_le_one_of_admits hadmits, hresultCode, hmsg, hxid, hbranchId,
      hbranchStatus⟩
  · intro h
    obtain ⟨hkeptFields, hownFields⟩ := List.forall_mem_append.1 h.admits
    have hnames : ∀ m ∈ members.filter fun m => !isOwn m.1, m.1 ≠ .unpaired :=
      fun m hm => h.ne_unpaired m (List.mem_filter.1 hm).1
    have haccepted : ∀ f ∈ keptFields, Admits (members.filter fun m => !isOwn m.1) f :=
      fun f hf => (admits_kept hf).2 (hkeptFields f hf)
    refine ⟨_, ⟨rfl, h.ne_unpaired, hownFields⟩, _, ⟨h.isStorable, rfl⟩, _,
      ⟨rfl, hnames, haccepted⟩, r.xid, ?_, r.branchId, ?_, r.branchStatus, ?_, r.envelope, ?_,
      rfl⟩
    · rw [hown rfl]
      exact h.xid
    · rw [hown rfl]
      exact h.branchId
    · rw [hown rfl]
      exact h.branchStatus
    · rw [hkept rfl (by decide), hkept rfl (by decide)]
      exact ⟨h.resultCode, h.msg⟩

/-! ### What was written -/

/-- The members of an answer that is written, those of the envelope first. -/
def written (r : EndResponse) : List (Literal × Json) :=
  [(.text "resultCode", r.envelope.resultCode.toJson), (.text "msg", .ofText? r.envelope.msg),
    (.text "xid", r.xid.toJson), (.text "branchId", r.branchId.toJson),
    (.text "branchStatus", r.branchStatus.toJson)]

theorem toJson_eq (r : EndResponse) : r.toJson = .object r.written := rfl

theorem nodup_written (r : EndResponse) : (r.written.map Prod.fst).Nodup := by
  change ([.text "resultCode", .text "msg", .text "xid", .text "branchId",
    .text "branchStatus"] : List Literal).Nodup
  decide

theorem spells_written (r : EndResponse) : Spells r.written r where
  ne_unpaired := by simp [written]
  isStorable := by
    -- an identifier or a status need not be kept aside
    have hmsg (s : Option String) : (Json.ofText? s).isStorable = true := by
      cases s <;> rfl
    intro m hm hown
    simp only [written, List.mem_cons, List.not_mem_nil, or_false] at hm
    rcases hm with rfl | rfl | rfl | rfl | rfl
    · rfl
    · exact hmsg _
    all_goals exact nomatch (show true = false from hown)
  count_le_one _ _ := List.nodup_iff_count_le_one.1 r.nodup_written _
  resultCode := ⟨_, rfl, ResultCode.asKeptResultCode_toJson _⟩
  msg := Json.asOptional_ofText? _
  xid := ⟨_, rfl, Xid.asXid_toJson _⟩
  branchId := ⟨_, rfl, BranchId.asBranchId_toJson _⟩
  branchStatus := ⟨_, rfl, Status.asStatus_toJson _⟩

theorem asEndResponse_toJson (r : EndResponse) : asEndResponse r.toJson = .ok r := by
  rw [toJson_eq, asEndResponse_eq_ok_iff]
  exact r.spells_written

/-- Every name other than that of the message has to be there. -/
theorem Spells.mem_of_ne_msg (h : Spells members r) {name : String} (hname : name ∈ names)
    (hmsg : name ≠ "msg") : .text name ∈ members.map Prod.fst := by
  simp only [names, List.mem_cons, List.not_mem_nil, or_false] at hname
  rcases hname with rfl | rfl | rfl | rfl | rfl
  · exact h.resultCode.mem
  · exact absurd rfl hmsg
  · exact h.xid.mem
  · exact h.branchId.mem
  · exact h.branchStatus.mem

/-! ### Members left out, added and moved -/

/-- The answer without its message. -/
def silenced (r : EndResponse) : EndResponse := { r with envelope.msg := none }

/-- The members without a message. -/
def withoutMsg (members : List (Literal × Json)) : List (Literal × Json) :=
  members.filter fun m => m.1 ≠ .text "msg"

theorem lookup_withoutMsg {name : String} (h : name ≠ "msg") :
    (withoutMsg members).lookup (.text name) = members.lookup (.text name) :=
  Table.lookup_filter (fun name => name ≠ .text "msg") (by simpa using h) members

/-- A message that is left out is absent from the answer. -/
theorem Spells.silenced (h : Spells members r) : Spells (withoutMsg members) r.silenced where
  ne_unpaired m hm := h.ne_unpaired m (List.mem_filter.1 hm).1
  isStorable m hm := h.isStorable m (List.mem_filter.1 hm).1
  count_le_one name hname :=
    ((List.filter_sublist.map Prod.fst).count_le _).trans (h.count_le_one name hname)
  resultCode := h.resultCode.congr (lookup_withoutMsg (by decide))
  msg := by
    have hnone : (withoutMsg members).lookup (.text "msg") = none := by
      rw [Table.lookup_eq_none_iff]
      simp [Table.keys, withoutMsg]
    rw [hnone]
    rfl
  xid := h.xid.congr (lookup_withoutMsg (by decide))
  branchId := h.branchId.congr (lookup_withoutMsg (by decide))
  branchStatus := h.branchStatus.congr (lookup_withoutMsg (by decide))

/-- The name is one of those of an answer. -/
def isNamed (name : Literal) : Bool := names.any fun n => Literal.text n = name

theorem isNamed_of_mem {name : String} (h : name ∈ names) : isNamed (.text name) = true :=
  List.any_eq_true.2 ⟨name, h, by simp⟩

/-- Neither the order of the members nor what else there is makes a difference. -/
theorem Spells.of_perm (h : Spells others r) (hothers : (others.map Prod.fst).Nodup)
    (hperm : (members.filter fun m => isNamed m.1).Perm others)
    (hnames : ∀ m ∈ members, m.1 ≠ .unpaired)
    (hunknown : ∀ m ∈ members, isNamed m.1 = false → m.2.isStorable = true) : Spells members r := by
  -- only names of an answer are looked up, so the others can be left out first
  have hlookup (name : String) (hname : name ∈ names) :
      members.lookup (.text name) = others.lookup (.text name) :=
    calc
      members.lookup (.text name)
        = List.lookup (.text name) (members.filter fun m => isNamed m.1) :=
          (Table.lookup_filter isNamed (isNamed_of_mem hname) members).symm
      _ = others.lookup (.text name) :=
          Table.lookup_eq_of_perm hperm ((hperm.map Prod.fst).nodup_iff.2 hothers) _
  have hcount {name : String} (hname : name ∈ names) :
      (members.map Prod.fst).count (.text name) = (others.map Prod.fst).count (.text name) :=
    (Table.count_keys_filter isNamed (isNamed_of_mem hname) members).symm.trans
      ((hperm.map Prod.fst).count_eq _)
  exact {
    ne_unpaired := hnames
    isStorable := fun m hm hown => by
      -- the envelope's own members are kept aside as well
      cases hnamed : isNamed m.1 with
      | false => exact hunknown m hm hnamed
      | true => exact h.isStorable m (hperm.mem_iff.1 (List.mem_filter.2 ⟨hm, hnamed⟩)) hown
    count_le_one := fun name hname => (hcount hname).trans_le (h.count_le_one name hname)
    resultCode := h.resultCode.congr (hlookup "resultCode" (by decide))
    msg := hlookup "msg" (by decide) ▸ h.msg
    xid := h.xid.congr (hlookup "xid" (by decide))
    branchId := h.branchId.congr (hlookup "branchId" (by decide))
    branchStatus := h.branchStatus.congr (hlookup "branchStatus" (by decide)) }

/-! ### Texts -/

section Texts

variable {s : String}

theorem decodeText_eq_some_iff (h : Json.parse s = some (.object members)) :
    decodeText asEndResponse s = some r ↔ Spells members r := by
  rw [← asEndResponse_eq_ok_iff, Json.decodeText_eq_some_iff, h]
  simp

theorem decodeText_eq_none_iff (h : Json.parse s = some (.object members)) :
    decodeText asEndResponse s = none ↔ ∀ r, ¬Spells members r := by
  rw [Option.eq_none_iff_forall_ne_some]
  exact forall_congr' fun r => not_congr (decodeText_eq_some_iff h)

/-- A value that cannot be kept aside is refused even under a name that nobody asks for. -/
theorem not_read_of_not_isStorable (h : Json.parse s = some (.object members))
    (hvalue : ∃ m ∈ members, isOwn m.1 = false ∧ m.2.isStorable = false) :
    decodeText asEndResponse s = none := by
  rw [decodeText_eq_none_iff h]
  obtain ⟨m, hm, hown, hstorable⟩ := hvalue
  intro r hr
  exact nomatch hstorable.symm.trans (hr.isStorable m hm hown)

end Texts

/-- An answer is read from a text by the names of its members. What was written is read again, also
with its members in another order and among unknown ones, as long as their values can be kept aside;
a message that is left out is absent. Nothing is read from an object in which a name of an answer
comes twice, or one other than `msg` is missing, and nothing from an array. -/
theorem read_by_name (r : EndResponse) :
    decodeText asEndResponse r.toJson.text = some r ∧
    (∀ s members, Json.parse s = some (.object members) →
      (∀ m ∈ members, m.1 ≠ .unpaired) →
      (∀ m ∈ members, isNamed m.1 = false → m.2.isStorable = true) →
        ((members.filter fun m => isNamed m.1).Perm r.written →
          decodeText asEndResponse s = some r) ∧
        ((members.filter fun m => isNamed m.1).Perm (withoutMsg r.written) →
          decodeText asEndResponse s = some r.silenced)) ∧
    (∀ s members, Json.parse s = some (.object members) →
      ((∃ name ∈ names, 2 ≤ (members.map Prod.fst).count (.text name)) ∨
        (∃ name ∈ names, name ≠ "msg" ∧ .text name ∉ members.map Prod.fst)) →
          decodeText asEndResponse s = none) ∧
    ∀ s items, Json.parse s = some (.array items) → decodeText asEndResponse s = none := by
  refine ⟨?_, ?_, ?_, ?_⟩
  · exact Json.decodeText_text r.asEndResponse_toJson
  · intro s members hparse hnames hunknown
    have hshort : ((withoutMsg r.written).map Prod.fst).Nodup :=
      r.nodup_written.sublist (List.filter_sublist.map Prod.fst)
    constructor
    · intro hperm
      exact (decodeText_eq_some_iff hparse).2
        (r.spells_written.of_perm r.nodup_written hperm hnames hunknown)
    · intro hperm
      exact (decodeText_eq_some_iff hparse).2
        (r.spells_written.silenced.of_perm hshort hperm hnames hunknown)
  · intro s members hparse hnot
    rw [decodeText_eq_none_iff hparse]
    intro other hother
    obtain ⟨name, hname, htwice⟩ | ⟨name, hname, hmsg, hmissing⟩ := hnot
    · exact absurd (hother.count_le_one name hname) (Nat.not_le.2 htwice)
    · exact hmissing (hother.mem_of_ne_msg hname hmsg)
  · intro s items hparse
    rw [decodeText, hparse]
    rfl

/-- The answer of a failed branch is read with its members from the last to the first, between
unknown ones of one name, and without its message. It is not read with its message twice, without
its transaction, or from the values alone. -/
theorem read_by_name_from_the_end :
    let r : EndResponse := .failed ⟨"tc:8091:1"⟩ ⟨-7⟩ .committed "boom"
    let zone : Literal × Json := (.text "zone", .array [.bool true, .object []])
    let reversed : Json := .object (zone :: (.text "branchStatus", .ofText "PhaseTwoCommitted") ::
      zone :: [(.text "branchId", .ofInt (-7)), (.text "xid", .ofText "tc:8091:1"),
        (.text "msg", .ofText "boom"), (.text "resultCode", .ofText "Failed")])
    let silent : Json := .object
      [(.text "branchStatus", .ofText "PhaseTwoCommitted"), (.text "branchId", .ofInt (-7)),
        (.text "xid", .ofText "tc:8091:1"), (.text "resultCode", .ofText "Failed"), zone]
    let repeated : Json := .object (r.written ++ [(.text "msg", .null)])
    let missing : Json := .object
      [(.text "resultCode", .ofText "Failed"), (.text "branchId", .ofInt (-7)),
        (.text "branchStatus", .ofText "PhaseTwoCommitted")]
    let nameless : Json := .array (r.written.map Prod.snd)
    decodeText asEndResponse r.toJson.text = some r ∧
      decodeText asEndResponse reversed.text = some r ∧
      decodeText asEndResponse silent.text = some r.silenced ∧
      decodeText asEndResponse repeated.text = none ∧
      decodeText asEndResponse missing.text = none ∧
      decodeText asEndResponse nameless.text = none := by
  intro r zone reversed silent repeated missing nameless
  obtain ⟨hwritten, hread, hrefused, harray⟩ := read_by_name r
  refine ⟨hwritten, ?_, ?_, ?_, ?_, ?_⟩
  · refine (hread _ _ (Json.parse_text reversed) (by simp [zone]) ?_).1 (r.written.reverse_perm)
    simp only [List.forall_mem_cons]
    decide
  · refine (hread _ _ (Json.parse_text silent) (by simp [zone]) ?_).2
      (withoutMsg r.written).reverse_perm
    simp only [List.forall_mem_cons]
    decide
  · exact hrefused _ _ (Json.parse_text repeated) (.inl ⟨"msg", by decide, by decide⟩)
  · exact hrefused _ _ (Json.parse_text missing) (.inr ⟨"xid", by decide, by decide, by decide⟩)
  · exact harray _ _ (Json.parse_text nameless)

end EndResponse

end GlobalTransaction.Branch
