import GlobalTransaction.Json.Decoder
import GlobalTransaction.Proofs.Json.RoundTrip
import GlobalTransaction.Table
import Mathlib.Data.List.Nodup

/-!
# What is read from the members of an object

The reading of a record goes through the members of an object one by one. What it finds can be told
from all of them at once: the members of known fields in their order, as long as none comes twice
and each has a value that fits.

## Main definitions

* `Json.knownOf` — the members of known fields
* `Json.Fits` — a member with a value that its field accepts
* `Json.decodeText` — what a text denotes in a type

## Main results

* `Json.knownMembers_eq_ok_iff` — when an object is read as a record, and what is found
* `Json.lookup_knownOf`, `Json.count_knownOf` — names and values are those of the object
* `Json.exists_knownMembers_iff`, `Json.knownMembers_eq_ok_iff_forall_field` — when an object is
  read as a record, name by name and field by field
* `Json.asRecord_ofFields` — the fields of a record that was written are found again
* `Json.decodeText_text` — a text that was written denotes what its value denotes
* `Json.asList_map`, `Json.asOptional_elim` — lists and optional values that were written
-/

set_option autoImplicit false

namespace GlobalTransaction.Json

variable {α : Type} {fields : List Field} {members : List (Literal × Json)} {r seen : Record}

/-! ### Texts -/

/-- What a text denotes in a type. -/
def decodeText (decode : Decoder α) (s : String) : Option α :=
  (parse s).bind fun j => (decode j).toOption

theorem decodeText_text {decode : Decoder α} {j : Json} {a : α} (h : decode j = .ok a) :
    decodeText decode j.text = some a := by
  rw [decodeText, parse_text, Option.bind_some, h]
  rfl

theorem decodeText_eq_some_iff {decode : Decoder α} {s : String} {a : α} :
    decodeText decode s = some a ↔ ∃ j, parse s = some j ∧ decode j = .ok a := by
  rw [decodeText, Option.bind_eq_some_iff]
  refine exists_congr fun j => and_congr_right fun _ => ?_
  cases decode j <;> simp [Except.toOption]

/-! ### Plain values -/

theorem asText_eq_ok_iff {j : Json} {s : String} : asText j = .ok s ↔ j = .ofText s := by
  constructor
  · intro h
    rw [asText.eq_def] at h
    split at h
    · rw [Except.ok.inj h]
      rfl
    · exact nomatch h
  · rintro rfl
    exact asText_ofText s

/-- Two readings in turn give what the second makes of the first. -/
theorem bind_eq_ok_iff {β : Type} {x : Except Mismatch α} {f : α → Except Mismatch β} {b : β} :
    x >>= f = .ok b ↔ ∃ a, x = .ok a ∧ f a = .ok b := by
  cases x <;> simp [bind, Except.bind]

/-- The values of a list are read back one by one. -/
theorem asList_map {encode : α → Json} {decode : Decoder α} {as : List α}
    (h : ∀ a ∈ as, decode (encode a) = .ok a) :
    asList decode (.array (as.map encode)) = .ok as := by
  rw [asList]
  induction as with
  | nil => rfl
  | cons a as ih =>
    obtain ⟨ha, has⟩ := List.forall_mem_cons.1 h
    rw [List.map_cons, List.mapM_cons, ha, ih has]
    rfl

/-- A value that is not written as `null` is read back where it is optional. -/
theorem asOptional_elim {encode : α → Json} {decode : Decoder α} {o : Option α}
    (h : ∀ a ∈ o, encode a ≠ .null ∧ decode (encode a) = .ok a) :
    asOptional decode (o.elim .null encode) = .ok o := by
  cases o with
  | none => rfl
  | some a =>
    obtain ⟨hnull, hread⟩ := h a rfl
    rw [Option.elim_some, asOptional, hread]
    · rfl
    · exact hnull

/-! ### Members of known fields -/

/-- The field of a name. -/
def fieldOf? (fields : List Field) (name : String) : Option Field := fields.find? (·.name == name)

/-- The members of an object that belong to known fields. -/
def knownOf (fields : List Field) (members : List (Literal × Json)) : Record :=
  members.filterMap fun
    | (.text name, value) => (fieldOf? fields name).map fun _ => (name, value)
    | (.unpaired, _) => none

/-- A member of a known field has a value that the field accepts. -/
def Fits (fields : List Field) (member : String × Json) : Prop :=
  ∃ f, fieldOf? fields member.1 = some f ∧ f.check member.2 = .ok ()

theorem knownOf_cons_of_unknown {name : String} (h : fieldOf? fields name = none) (value : Json) :
    knownOf fields ((.text name, value) :: members) = knownOf fields members := by
  simp [knownOf, h]

theorem knownOf_cons_of_known {name : String} {f : Field} (h : fieldOf? fields name = some f)
    (value : Json) :
    knownOf fields ((.text name, value) :: members) =
      (name, value) :: knownOf fields members := by
  simp [knownOf, h]

theorem go_of_unknown {name : String} (h : fieldOf? fields name = none) (value : Json) :
    knownMembers.go fields seen ((.text name, value) :: members) =
      knownMembers.go fields seen members := by
  rw [fieldOf?] at h
  simp only [knownMembers.go, h]

/-- A member of a known field is taken if that has not been seen and accepts the value. -/
theorem go_of_known {name : String} {f : Field} (h : fieldOf? fields name = some f) (value : Json) :
    knownMembers.go fields seen ((.text name, value) :: members) = .ok r ↔
      seen.lookup name = none ∧ f.check value = .ok () ∧
        knownMembers.go fields ((name, value) :: seen) members = .ok r := by
  rw [fieldOf?] at h
  simp only [knownMembers.go, h]
  cases hseen : seen.lookup name with
  | some other => simp
  | none =>
    rw [if_neg (by simp), bind_eq_ok_iff]
    simp [Unique.exists_iff]

/-- What is found behind the fields that were seen. -/
theorem go_eq_ok_iff :
    knownMembers.go fields seen members = .ok r ↔
      r = seen.reverse ++ knownOf fields members ∧
        (∀ m ∈ members, m.1 ≠ .unpaired) ∧ ((knownOf fields members).map Prod.fst).Nodup ∧
        ∀ m ∈ knownOf fields members, seen.lookup m.1 = none ∧ Fits fields m := by
  induction members generalizing seen with
  | nil =>
    rw [knownMembers.go, Except.ok.injEq, eq_comm]
    simp [knownOf]
  | cons m members ih =>
    obtain ⟨_ | _, value⟩ := m
    case unpaired => simp [knownMembers.go]
    case text name =>
    have hname : Literal.text name ≠ .unpaired := nofun
    cases hfield : fieldOf? fields name with
    | none => simp [go_of_unknown hfield, ih, knownOf_cons_of_unknown hfield]
    | some f =>
      have hfits : Fits fields (name, value) ↔ f.check value = .ok () := by simp [Fits, hfield]
      -- the names behind the member differ from its own, as it has been seen there
      have hbehind : (∀ m ∈ knownOf fields members,
            ((name, value) :: seen).lookup m.1 = none ∧ Fits fields m) ↔
          name ∉ (knownOf fields members).map Prod.fst ∧
            ∀ m ∈ knownOf fields members, seen.lookup m.1 = none ∧ Fits fields m := by
        rw [List.mem_map]
        constructor
        · intro hall
          refine ⟨?_, fun m hm => ?_⟩
          · rintro ⟨m, hm, rfl⟩
            have hlookup := (hall m hm).1
            rw [Table.lookup_cons_eq, if_pos rfl] at hlookup
            exact nomatch hlookup
          · obtain ⟨hlookup, hvalue⟩ := hall m hm
            rw [Table.lookup_cons_eq] at hlookup
            split at hlookup
            · exact nomatch hlookup
            · exact ⟨hlookup, hvalue⟩
        · rintro ⟨hname, hall⟩ m hm
          have hne : m.1 ≠ name := fun heq => hname ⟨m, hm, heq⟩
          rw [Table.lookup_cons_eq, if_neg hne]
          exact hall m hm
      rw [go_of_known hfield, ih, hbehind, knownOf_cons_of_known hfield, List.reverse_cons,
        List.append_assoc, List.singleton_append, List.forall_mem_cons, List.map_cons,
        List.nodup_cons, List.forall_mem_cons, hfits]
      tauto

/-- An object is read as a record if every name is a text, no known field comes twice, and each of
their values fits. What is found then are the members of known fields. -/
theorem knownMembers_eq_ok_iff :
    knownMembers fields members = .ok r ↔
      r = knownOf fields members ∧ (∀ m ∈ members, m.1 ≠ .unpaired) ∧
        ((knownOf fields members).map Prod.fst).Nodup ∧
        ∀ m ∈ knownOf fields members, Fits fields m := by
  rw [knownMembers, go_eq_ok_iff]
  simp

/-! ### Names and values -/

section Names

variable {name : String} {f : Field}

/-- Under the name of a known field there is what the object has under it. -/
theorem lookup_knownOf (h : fieldOf? fields name = some f) (members : List (Literal × Json)) :
    (knownOf fields members).lookup name = members.lookup (.text name) := by
  induction members with
  | nil => rfl
  | cons m members ih =>
    obtain ⟨other | _, value⟩ := m
    case unpaired =>
      rw [Table.lookup_cons_eq, if_neg (by simp)]
      exact ih
    case text =>
    rw [Table.lookup_cons_eq, ← ih]
    cases hother : fieldOf? fields other with
    | none =>
      have hne : name ≠ other := by
        rintro rfl
        exact nomatch h.symm.trans hother
      rw [knownOf_cons_of_unknown hother, if_neg (by simp [hne])]
    | some g =>
      rw [knownOf_cons_of_known hother, Table.lookup_cons_eq]
      simp

/-- The name of a known field comes as often as in the object. -/
theorem count_knownOf (h : fieldOf? fields name = some f) (members : List (Literal × Json)) :
    ((knownOf fields members).map Prod.fst).count name =
      (members.map Prod.fst).count (.text name) := by
  induction members with
  | nil => rfl
  | cons m members ih =>
    obtain ⟨other | _, value⟩ := m
    case unpaired =>
      rw [List.map_cons, List.count_cons_of_ne (by simp)]
      exact ih
    case text =>
    rw [List.map_cons, List.count_cons, ← ih]
    cases hother : fieldOf? fields other with
    | none =>
      have hne : other ≠ name := by
        rintro rfl
        exact nomatch h.symm.trans hother
      rw [knownOf_cons_of_unknown hother, if_neg (by simp [hne]), Nat.add_zero]
    | some g =>
      rw [knownOf_cons_of_known hother, List.map_cons, List.count_cons]
      simp

theorem fieldOf?_of_mem_knownOf {m : String × Json} (h : m ∈ knownOf fields members) :
    ∃ f, fieldOf? fields m.1 = some f := by
  obtain ⟨⟨name | _, value⟩, -, hm⟩ := List.mem_filterMap.1 h
  · obtain ⟨f, hfield, rfl⟩ := Option.map_eq_some_iff.1 hm
    exact ⟨f, hfield⟩
  · exact nomatch hm

/-- An object is read as a record if every name is a text, and each known field comes once at most,
with a value that fits. -/
theorem exists_knownMembers_iff :
    (∃ r, knownMembers fields members = .ok r) ↔
      (∀ m ∈ members, m.1 ≠ .unpaired) ∧
        ∀ name f, fieldOf? fields name = some f →
          (members.map Prod.fst).count (.text name) ≤ 1 ∧
            ∀ value, members.lookup (.text name) = some value → f.check value = .ok () := by
  simp only [knownMembers_eq_ok_iff, exists_eq_left]
  refine and_congr_right fun _ => ?_
  constructor
  · rintro ⟨hnodup, hfits⟩ name f hfield
    refine ⟨?_, fun value hvalue => ?_⟩
    · rw [← count_knownOf hfield]
      exact List.nodup_iff_count_le_one.1 hnodup name
    · rw [← lookup_knownOf hfield] at hvalue
      obtain ⟨g, hg, hcheck⟩ := hfits _ ((Table.mem_iff_lookup_eq_some hnodup).2 hvalue)
      obtain rfl := Option.some.inj (hfield.symm.trans hg)
      exact hcheck
  · intro hall
    have hnodup : ((knownOf fields members).map Prod.fst).Nodup := by
      refine List.nodup_iff_count_le_one.2 fun name => ?_
      by_cases hmem : name ∈ (knownOf fields members).map Prod.fst
      · obtain ⟨m, hm, rfl⟩ := List.mem_map.1 hmem
        obtain ⟨f, hfield⟩ := fieldOf?_of_mem_knownOf hm
        rw [count_knownOf hfield]
        exact (hall _ f hfield).1
      · rw [List.count_eq_zero_of_not_mem hmem]
        exact Nat.zero_le 1
    refine ⟨hnodup, fun m hm => ?_⟩
    obtain ⟨f, hfield⟩ := fieldOf?_of_mem_knownOf hm
    have hvalue := (Table.mem_iff_lookup_eq_some hnodup).1 hm
    rw [lookup_knownOf hfield] at hvalue
    exact ⟨f, hfield, (hall _ f hfield).2 _ hvalue⟩

/-- When names differ, the field of a name is the one that has it. -/
theorem fieldOf?_eq_some_iff (hnames : (fields.map Field.name).Nodup) :
    fieldOf? fields name = some f ↔ f ∈ fields ∧ f.name = name := by
  constructor
  · intro h
    exact ⟨List.mem_of_find?_eq_some h, by simpa using List.find?_some h⟩
  · rintro ⟨hmem, rfl⟩
    obtain ⟨g, hg⟩ : ∃ g, fieldOf? fields f.name = some g :=
      Option.isSome_iff_exists.1 (List.find?_isSome.2 ⟨f, hmem, beq_self_eq_true f.name⟩)
    have hname : g.name = f.name := by simpa using List.find?_some hg
    rw [hg, List.inj_on_of_nodup_map hnames (List.mem_of_find?_eq_some hg) hmem hname]

/-- An object is read as a record if every name is a text, and each field comes once at most, with a
value that fits. -/
theorem knownMembers_eq_ok_iff_forall_field (hnames : (fields.map Field.name).Nodup) :
    knownMembers fields members = .ok r ↔
      r = knownOf fields members ∧ (∀ m ∈ members, m.1 ≠ .unpaired) ∧
        ∀ f ∈ fields, (members.map Prod.fst).count (.text f.name) ≤ 1 ∧
          ∀ value, members.lookup (.text f.name) = some value → f.check value = .ok () := by
  have hfound : knownMembers fields members = .ok r ↔
      r = knownOf fields members ∧ ∃ r, knownMembers fields members = .ok r := by
    simp only [knownMembers_eq_ok_iff, exists_eq_left]
  rw [hfound, exists_knownMembers_iff]
  refine and_congr_right fun _ => and_congr_right fun _ => ?_
  simp only [fieldOf?_eq_some_iff hnames]
  constructor
  · exact fun h f hf => h f.name f ⟨hf, rfl⟩
  · rintro h name f ⟨hf, rfl⟩
    exact h f hf

end Names

/-! ### Fields by their names -/

theorem check_field_eq_ok_iff {name : String} {decode : Decoder α} {value : Json} :
    (field name decode).check value = .ok () ↔ ∃ a, decode value = .ok a := by
  change discard (decode value) = .ok () ↔ _
  cases decode value <;> simp [discard, Functor.mapConst, Except.map]

theorem Record.required_eq_ok_iff {name : String} {decode : Decoder α} {a : α} :
    r.required name decode = .ok a ↔
      ∃ value, r.lookup name = some value ∧ decode value = .ok a := by
  rw [Record.required]
  cases r.lookup name <;> simp

theorem Record.optional_eq {name : String} {decode : Decoder α} :
    r.optional name decode = (r.lookup name).elim (.ok none) (asOptional decode) := by
  rw [Record.optional]
  cases r.lookup name <;> rfl

/-! ### Records that were written -/

theorem Fits.of_read {name : String} {decode : Decoder α} {value : Json} {a : α}
    (hfield : fieldOf? fields name = some (field name decode)) (hread : decode value = .ok a) :
    Fits fields (name, value) := by
  refine ⟨field name decode, hfield, ?_⟩
  change discard (decode value) = .ok ()
  rw [hread]
  rfl

theorem knownOf_map (h : ∀ m ∈ r, Fits fields m) :
    knownOf fields (r.map fun m => (.text m.1, m.2)) = r := by
  induction r with
  | nil => rfl
  | cons m r ih =>
    obtain ⟨⟨f, hfield, -⟩, hrest⟩ := List.forall_mem_cons.1 h
    rw [List.map_cons, knownOf_cons_of_known hfield, ih hrest]

/-- The fields of a record that was written are found again. -/
theorem asRecord_ofFields {shape : String} (hnames : (r.map Prod.fst).Nodup)
    (h : ∀ m ∈ r, Fits fields m) : asRecord shape fields (ofFields r) = .ok r := by
  change knownMembers fields (r.map fun m => (.text m.1, m.2)) = .ok r
  rw [knownMembers_eq_ok_iff, knownOf_map h]
  refine ⟨rfl, ?_, hnames, h⟩
  intro m hm
  obtain ⟨-, -, rfl⟩ := List.mem_map.1 hm
  exact nofun

end GlobalTransaction.Json
