import GlobalTransaction.Proofs.Json.Tokens

/-!
# Reading back values

A value that was written is read back, whatever it is made of. The reader goes through a written
text exactly once, so that the length of the text is enough of a bound.

## Main definitions

* `Json.EndsBefore` — a text with which a value has come to its end
* `Json.ReadsBack` — a value is read back wherever it stands

## Main results

* `Json.readsBack` — every value is read back
* `Json.parse_text` — the text of a value denotes that value
-/

set_option autoImplicit false

namespace GlobalTransaction.Json

open Text

variable {rest : List Char} {fuel : Nat}

/-- The text goes on with a comma or with the end of an array or an object, if it goes on at all. -/
def EndsBefore (rest : List Char) : Prop :=
  ∀ c, rest.head? = some c → c = ',' ∨ c = ']' ∨ c = '\x7d'

theorem EndsBefore.number (h : EndsBefore rest) : Number.EndsBefore rest := by
  intro c hc
  rcases h c hc with rfl | rfl | rfl
  · decide
  · decide
  · decide

theorem endsBefore_nil : EndsBefore [] := nofun

theorem endsBefore_cons {c : Char} (h : c = ',' ∨ c = ']' ∨ c = '\x7d') (rest : List Char) :
    EndsBefore (c :: rest) :=
  fun _ hc => Option.some.inj hc ▸ h

/-! ### How values begin -/

/-- What is read as a number begins with a sign or with a digit. -/
theorem exists_of_readNumber {cs : List Char} {found : Number × List Char}
    (h : readNumber cs = some found) : ∃ c cs', cs = c :: cs' ∧ (c = '-' ∨ c.isDigit = true) := by
  cases cs with
  | nil => cases h
  | cons c cs =>
    refine ⟨c, cs, rfl, ?_⟩
    -- otherwise there is no digit at all where the whole part should be
    by_contra hfirst
    obtain ⟨hsign, hdigit⟩ := not_or.1 hfirst
    have hwhole : readWhole (c :: cs) = none := by simp [readWhole, spanDigits, hdigit]
    rw [readNumber, readUnsigned, hwhole] at h
    · cases h
    · exact fun _ heq => hsign (List.cons.inj heq).1

theorem isSpace_of_isDigit {c : Char} (h : c.isDigit = true) : isSpace c = false := by
  by_contra hspace
  simp only [isSpace, Bool.not_eq_false, Bool.or_eq_true, decide_eq_true_eq] at hspace
  rcases hspace with ((rfl | rfl) | rfl) | rfl <;> exact nomatch h

/-- A value begins neither with a blank nor with the end of an array or an object. -/
theorem exists_print (j : Json) :
    ∃ c cs, j.print = c :: cs ∧ isSpace c = false ∧ c ≠ ']' ∧ c ≠ '\x7d' := by
  cases j with
  | null => exact ⟨_, _, rfl, by decide⟩
  | bool value => cases value <;> exact ⟨_, _, rfl, by decide⟩
  | number n =>
    obtain ⟨c, cs, hprint, hfirst⟩ :=
      exists_of_readNumber (readNumber_print n endsBefore_nil.number)
    rw [List.append_nil] at hprint
    refine ⟨c, cs, hprint, ?_⟩
    rcases hfirst with rfl | hdigit
    · decide
    · refine ⟨isSpace_of_isDigit hdigit, ?_, ?_⟩
      · rintro rfl
        exact nomatch hdigit
      · rintro rfl
        exact nomatch hdigit
  | string s => exact ⟨_, _, s.print_eq, by decide⟩
  | array items => cases items <;> exact ⟨_, _, rfl, by decide⟩
  | object members => cases members <;> exact ⟨_, _, rfl, by decide⟩

theorem skipSpace_cons {c : Char} (h : isSpace c = false) (cs : List Char) :
    skipSpace (c :: cs) = c :: cs := by
  simp [skipSpace, h]

theorem skipSpace_print (j : Json) (rest : List Char) :
    skipSpace (j.print ++ rest) = j.print ++ rest := by
  obtain ⟨c, cs, hprint, hspace, -⟩ := j.exists_print
  rw [hprint, List.cons_append, skipSpace_cons hspace]

theorem length_print_pos (j : Json) : 0 < j.print.length := by
  obtain ⟨c, cs, hprint, -⟩ := j.exists_print
  rw [hprint]
  exact Nat.succ_pos _

/-! ### One value -/

theorem readValue_number {c : Char} (h : c = '-' ∨ c.isDigit = true) (cs : List Char) :
    readValue (fuel + 1) (c :: cs) =
      (readNumber (c :: cs)).map fun found => (.number found.1, found.2) := by
  rw [readValue]
  · cases readNumber (c :: cs) <;> rfl
  all_goals
    rintro rest heq
    obtain ⟨rfl, -⟩ := List.cons.inj heq
    exact absurd h (by decide)

theorem readValue_items {cs : List Char} (hspace : skipSpace cs = cs)
    (hend : ∀ rest, cs ≠ ']' :: rest) :
    readValue (fuel + 1) ('[' :: cs) =
      (readItems fuel cs).map fun found => (.array found.1, found.2) := by
  rw [readValue, hspace]
  split
  next heq => exact absurd rfl (hend _)
  next => cases readItems fuel cs <;> rfl

theorem readValue_members {cs : List Char} (hspace : skipSpace cs = cs)
    (hend : ∀ rest, cs ≠ '\x7d' :: rest) :
    readValue (fuel + 1) ('\x7b' :: cs) =
      (readMembers fuel cs).map fun found => (.object found.1, found.2) := by
  rw [readValue, hspace]
  split
  next heq => exact absurd rfl (hend _)
  next => cases readMembers fuel cs <;> rfl

/-- A value is read back wherever it comes to its end. -/
def ReadsBack (j : Json) : Prop :=
  ∀ (rest : List Char) (fuel : Nat), EndsBefore rest → 2 * j.print.length ≤ fuel →
    readValue fuel (j.print ++ rest) = some (j, rest)

theorem ReadsBack.of_succ {j : Json}
    (h : ∀ (rest : List Char) (fuel : Nat), EndsBefore rest → 2 * j.print.length ≤ fuel + 1 →
      readValue (fuel + 1) (j.print ++ rest) = some (j, rest)) : j.ReadsBack := by
  intro rest fuel hrest hfuel
  have hpos := j.length_print_pos
  obtain ⟨fuel, rfl⟩ := Nat.exists_eq_add_one_of_ne_zero (n := fuel) (by omega)
  exact h rest fuel hrest hfuel

theorem readsBack_number (n : Number) : (number n).ReadsBack := by
  refine .of_succ fun rest fuel hrest _ => ?_
  have hread := readNumber_print n hrest.number
  obtain ⟨c, cs, hprint, hfirst⟩ := exists_of_readNumber hread
  rw [hprint] at hread
  rw [print, hprint, readValue_number hfirst, hread]
  rfl

/-! ### Items and members -/

section Lists

variable {item value : Json} {name : Literal} {cs : List Char}

theorem readItems_last (hitem : item.ReadsBack) (hfuel : 2 * item.print.length ≤ fuel)
    (rest : List Char) :
    readItems (fuel + 1) (item.print ++ ']' :: rest) = some ([item], rest) := by
  rw [readItems, skipSpace_print, hitem _ _ (endsBefore_cons (by simp) rest) hfuel]
  rfl

theorem readItems_comma (hitem : item.ReadsBack) (hfuel : 2 * item.print.length ≤ fuel)
    (cs : List Char) :
    readItems (fuel + 1) (item.print ++ ',' :: cs) =
      (readItems fuel cs).map fun found => (item :: found.1, found.2) := by
  rw [readItems, skipSpace_print, hitem _ _ (endsBefore_cons (by simp) cs) hfuel]
  cases h : readItems fuel cs <;> simp [skipSpace_cons, isSpace, h]

theorem readMembers_last (hvalue : value.ReadsBack) (hfuel : 2 * value.print.length ≤ fuel)
    (rest : List Char) :
    readMembers (fuel + 1) (name.print ++ ':' :: (value.print ++ '\x7d' :: rest)) =
      some ([(name, value)], rest) := by
  have hread := hvalue ('\x7d' :: rest) fuel (endsBefore_cons (by simp) rest) hfuel
  rw [name.print_eq, List.cons_append, readMembers, skipSpace_cons (by decide)]
  simp [readLiteral_body, skipSpace_cons, isSpace, skipSpace_print, hread]

theorem readMembers_comma (hvalue : value.ReadsBack) (hfuel : 2 * value.print.length ≤ fuel)
    (cs : List Char) :
    readMembers (fuel + 1) (name.print ++ ':' :: (value.print ++ ',' :: cs)) =
      (readMembers fuel cs).map fun found => ((name, value) :: found.1, found.2) := by
  have hread := hvalue (',' :: cs) fuel (endsBefore_cons (by simp) cs) hfuel
  rw [name.print_eq, List.cons_append, readMembers, skipSpace_cons (by decide)]
  cases h : readMembers fuel cs <;>
    simp [readLiteral_body, skipSpace_cons, isSpace, skipSpace_print, hread, h]

/-- The items of an array are read back one after the other. -/
theorem readItems_print {items : List Json} (hitem : item.ReadsBack)
    (hitems : ∀ j ∈ items, j.ReadsBack)
    (hfuel : 2 * (item.print.length + (printItems items).length) < fuel) (rest : List Char) :
    readItems fuel (item.print ++ (printItems items ++ ']' :: rest)) =
      some (item :: items, rest) := by
  obtain ⟨fuel, rfl⟩ := Nat.exists_eq_add_one_of_ne_zero (Nat.ne_zero_of_lt hfuel)
  -- every comma pays for the call that reads on behind it
  induction items generalizing item fuel with
  | nil => exact readItems_last hitem (by omega) rest
  | cons next items ih =>
    obtain ⟨hnext, hrest⟩ := List.forall_mem_cons.1 hitems
    rw [printItems, List.length_cons, List.length_append] at hfuel
    obtain ⟨fuel, rfl⟩ := Nat.exists_eq_add_one_of_ne_zero (n := fuel) (by omega)
    rw [printItems, List.cons_append, List.append_assoc, readItems_comma hitem (by omega),
      ih hnext hrest fuel (by omega)]
    rfl

/-- The members of an object are read back one after the other. -/
theorem readMembers_print {members : List (Literal × Json)} (hvalue : value.ReadsBack)
    (hmembers : ∀ m ∈ members, m.2.ReadsBack)
    (hfuel : 2 * (value.print.length + (printMembers members).length) < fuel) (rest : List Char) :
    readMembers fuel
        (name.print ++ ':' :: (value.print ++ (printMembers members ++ '\x7d' :: rest))) =
      some ((name, value) :: members, rest) := by
  obtain ⟨fuel, rfl⟩ := Nat.exists_eq_add_one_of_ne_zero (Nat.ne_zero_of_lt hfuel)
  induction members generalizing name value fuel with
  | nil => exact readMembers_last hvalue (by omega) rest
  | cons next members ih =>
    obtain ⟨name', value'⟩ := next
    obtain ⟨hnext : value'.ReadsBack, hrest⟩ := List.forall_mem_cons.1 hmembers
    simp only [printMembers, List.length_cons, List.length_append] at hfuel
    obtain ⟨fuel, rfl⟩ := Nat.exists_eq_add_one_of_ne_zero (n := fuel) (by omega)
    rw [printMembers, List.cons_append, List.append_assoc, List.cons_append, List.append_assoc,
      readMembers_comma hvalue (by omega), ih hnext hrest fuel (by omega)]
    rfl

theorem readsBack_array {items : List Json} (hitems : ∀ j ∈ items, j.ReadsBack) :
    (array items).ReadsBack := by
  refine .of_succ fun rest fuel hrest hfuel => ?_
  cases items with
  | nil => simp [print, readValue, skipSpace_cons, isSpace]
  | cons item items =>
    obtain ⟨hitem, hmore⟩ := List.forall_mem_cons.1 hitems
    simp only [print, List.length_cons, List.length_append, List.length_nil] at hfuel
    have hskip := item.skipSpace_print (printItems items ++ ']' :: rest)
    obtain ⟨c, cs, hprint, -, hend, -⟩ := item.exists_print
    simp only [print, List.cons_append, List.append_assoc, List.nil_append]
    rw [readValue_items hskip, readItems_print hitem hmore (by omega)]
    · rfl
    · rw [hprint]
      exact fun _ heq => hend (List.cons.inj heq).1

theorem readsBack_object {members : List (Literal × Json)}
    (hmembers : ∀ m ∈ members, m.2.ReadsBack) : (object members).ReadsBack := by
  refine .of_succ fun rest fuel hrest hfuel => ?_
  cases members with
  | nil => simp [print, readValue, skipSpace_cons, isSpace]
  | cons m members =>
    obtain ⟨name, value⟩ := m
    obtain ⟨hvalue : value.ReadsBack, hmore⟩ := List.forall_mem_cons.1 hmembers
    simp only [print, List.length_cons, List.length_append, List.length_nil] at hfuel
    obtain ⟨cs, hname⟩ : ∃ cs, name.print = '"' :: cs := ⟨_, name.print_eq⟩
    have hskip : skipSpace (name.print ++ ':' :: (value.print ++ (printMembers members ++ '\x7d' ::
        rest))) = name.print ++ ':' :: (value.print ++ (printMembers members ++ '\x7d' :: rest)) := by
      rw [hname]
      exact skipSpace_cons (by decide) _
    simp only [print, List.cons_append, List.append_assoc, List.nil_append]
    rw [readValue_members hskip, readMembers_print hvalue hmore (by omega)]
    · rfl
    · rw [hname]
      exact fun _ heq => absurd (List.cons.inj heq).1 (by decide)

end Lists

/-- Every value is read back. -/
theorem readsBack : (j : Json) → j.ReadsBack
  | .null => .of_succ fun rest fuel _ _ => rfl
  | .bool value => .of_succ fun rest fuel _ _ => by cases value <;> rfl
  | .string s => .of_succ fun rest fuel _ _ => by
    rw [print, s.print_eq, List.cons_append, readValue, readLiteral_body]
    rfl
  | .number n => readsBack_number n
  | .array items => readsBack_array fun item _ => readsBack item
  | .object members => readsBack_object fun m _ => readsBack m.2
termination_by j => sizeOf j
decreasing_by
  · have hitem := List.sizeOf_lt_of_mem ‹item ∈ items›
    simp only [array.sizeOf_spec]
    omega
  · obtain ⟨name, value⟩ := m
    have hmember := List.sizeOf_lt_of_mem ‹(name, value) ∈ members›
    simp only [object.sizeOf_spec, Prod.mk.sizeOf_spec] at hmember ⊢
    omega

/-- The text of a value denotes that value. -/
theorem parse_text (j : Json) : parse j.text = some j := by
  have hread := j.readsBack [] (2 * j.print.length + 1) endsBefore_nil (by omega)
  have hskip := j.skipSpace_print []
  rw [List.append_nil] at hread hskip
  rw [parse, text, String.toList_ofList, parseChars, hskip, hread]
  rfl

end GlobalTransaction.Json
