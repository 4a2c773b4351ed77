import GlobalTransaction.Proofs.Identity.Spelling
import GlobalTransaction.Proofs.Json.Records
import GlobalTransaction.Proofs.Text.Hexadecimal

/-!
# The texts that denote an identifier

An identifier has four spellings, each in any letter case. A text that was written by hand may have
blanks around a spelling, a string in a JSON text may not. Nothing else is read.

## Main definitions

* `InstanceId.Spelling`, `Spelling.write` — the four ways to spell an identifier
* `InstanceId.IsSpelled` — a text is an identifier, spelled in letters of either case

## Main results

* `InstanceId.ofSpelling?_eq_some_iff` — a text denotes an identifier exactly if it spells it
* `InstanceId.read_exactly_if_spelled` — what is read as an identifier, from plain and JSON texts
-/

set_option autoImplicit false

namespace GlobalTransaction.InstanceId

open Text Json

/-! ### Spellings -/

/-- The ways to spell an identifier. -/
inductive Spelling
  /-- Thirty-two digits. -/
  | bare
  /-- The digits in groups of 8, 4, 4, 4 and 12, with hyphens between them. -/
  | hyphenated
  /-- The same in braces. -/
  | braced
  /-- The same behind the name space. -/
  | named
deriving DecidableEq

/-- An identifier in one of its spellings, with letters in lower case. -/
def Spelling.write : Spelling → InstanceId → List Char
  | .bare, id => id.digits
  | .hyphenated, id => id.print
  | .braced, id => '\x7b' :: (id.print ++ ['\x7d'])
  | .named, id => urnScheme ++ id.print

/-- The number of characters of a spelling. -/
def Spelling.length : Spelling → Nat
  | .bare => 32
  | .hyphenated => 36
  | .braced => 38
  | .named => 45

/-- A text is an identifier in one of its spellings, with letters of either case. -/
def IsSpelled (id : InstanceId) (cs : List Char) : Prop :=
  ∃ spelling : Spelling, cs.map Char.toLower = spelling.write id

theorem Spelling.length_write (spelling : Spelling) (id : InstanceId) :
    (spelling.write id).length = spelling.length := by
  have hprint : id.print.length = 36 := id.length_print
  cases spelling with
  | bare => exact id.length_digits
  | hyphenated => exact hprint
  | braced => simp [write, length, hprint]
  | named => simp [write, length, hprint, urnScheme]

/-- A text that is spelled in some way has the length of that spelling. -/
theorem Spelling.length_eq {spelling : Spelling} {id : InstanceId} {cs : List Char}
    (h : cs.map Char.toLower = spelling.write id) : cs.length = spelling.length := by
  rw [← length_write spelling id, ← h, List.length_map]

theorem mem_joinGroups {separator : Char} {ns : List Nat} {cs : List Char} {c : Char}
    (h : c ∈ joinGroups separator ns cs) : c = separator ∨ c ∈ cs := by
  induction ns generalizing cs with
  | nil => exact .inr h
  | cons n ns ih =>
    cases ns with
    | nil => exact .inr h
    | cons m ns =>
      rw [joinGroups_cons_cons, List.mem_append, List.mem_cons] at h
      obtain h | h | h := h
      · exact .inr (List.mem_of_mem_take h)
      · exact .inl h
      · exact (ih h).imp_right List.mem_of_mem_drop

/-- No spelling has a blank in it. -/
theorem IsSpelled.isBlank {id : InstanceId} {cs : List Char} (h : id.IsSpelled cs) :
    ∀ c ∈ cs, isBlank c = false := by
  have hdigits : ∀ c ∈ id.digits, Text.isBlank c = false := by
    intro c hc
    obtain ⟨b, -, hc⟩ := List.mem_flatMap.1 hc
    exact isBlank_of_mem_hexadecimal hc
  have hprint : ∀ c ∈ id.print, Text.isBlank c = false := by
    intro c hc
    obtain rfl | hc := mem_joinGroups hc
    · decide
    · exact hdigits c hc
  have hscheme : ∀ c ∈ urnScheme, Text.isBlank c = false := by
    have hall : urnScheme.all fun c => !Text.isBlank c := by decide
    simpa using hall
  intro c hc
  obtain ⟨spelling, hcs⟩ := h
  have hlower : c.toLower ∈ spelling.write id := hcs ▸ List.mem_map_of_mem hc
  rw [← isBlank_toLower]
  cases spelling with
  | bare => exact hdigits _ hlower
  | hyphenated => exact hprint _ hlower
  | braced =>
    rw [Spelling.write, List.mem_cons, List.mem_append, List.mem_singleton] at hlower
    obtain h | h | h := hlower
    · rw [h]; decide
    · exact hprint _ h
    · rw [h]; decide
  | named =>
    obtain h | h := List.mem_append.1 hlower
    · exact hscheme _ h
    · exact hprint _ h

/-! ### The digits of a spelling -/

theorem bytesOfDigits?_eq_some_iff {cs : List Char} {bytes : List UInt8} :
    bytesOfDigits? cs = some bytes ↔ cs.map Char.toLower = bytes.flatMap byteDigits := by
  -- digits are read in pairs, and a byte is written in a pair
  induction cs using bytesOfDigits?.induct generalizing bytes with
  | case1 =>
    cases bytes with
    | nil => simp [bytesOfDigits?]
    | cons b bytes =>
      have hne : byteDigits b ≠ [] :=
        List.ne_nil_of_length_pos (by rw [length_byteDigits]; decide)
      simp [bytesOfDigits?, hne]
  | case2 high low rest ih =>
    have hread : bytesOfDigits? (high :: low :: rest) = some bytes ↔ ∃ value,
        ofHexadecimal? [high, low] = some value ∧ ∃ others, bytesOfDigits? rest = some others ∧
          UInt8.ofNat value :: others = bytes := by
      simp [bytesOfDigits?, Option.bind_eq_some_iff]
    have hsplit : (high :: low :: rest).map Char.toLower =
        [high, low].map Char.toLower ++ rest.map Char.toLower := rfl
    rw [hread, hsplit]
    constructor
    · rintro ⟨value, hvalue, others, hothers, rfl⟩
      obtain ⟨hlt, hpair⟩ := ofHexadecimal?_eq_some_iff.1 hvalue
      have hbyte : byteDigits (UInt8.ofNat value) = hexadecimal 2 value := by
        rw [byteDigits, UInt8.toNat_ofNat_of_lt' hlt]
      rw [List.flatMap_cons, hbyte, hpair, ih.1 hothers]
      rfl
    · intro h
      cases bytes with
      | nil => exact absurd h (List.cons_ne_nil _ _)
      | cons b others =>
        obtain ⟨hpair, hrest⟩ := List.append_inj h (length_byteDigits b).symm
        refine ⟨b.toNat, ofHexadecimal?_eq_some_iff.2 ⟨b.toNat_lt, hpair⟩, others, ih.2 hrest, ?_⟩
        rw [UInt8.ofNat_toNat]
  | case3 c =>
    have hodd : [c.toLower] ≠ bytes.flatMap byteDigits := by
      intro h
      have hlength := congrArg List.length h
      simp [List.length_flatMap, List.map_const'] at hlength
      omega
    simpa [bytesOfDigits?] using hodd

theorem ofBytes?_eq_some_iff {bytes : List UInt8} {id : InstanceId} :
    ofBytes? bytes = some id ↔ id.bytes.toList = bytes := by
  constructor
  · intro h
    rw [ofBytes?, Option.dite_none_right_eq_some] at h
    obtain ⟨hlength, hid⟩ := h
    obtain rfl := Option.some.inj hid
    rfl
  · rintro rfl
    exact ofBytes?_toList id

theorem ofDigits?_eq_some_iff {cs : List Char} {id : InstanceId} :
    ofDigits? cs = some id ↔ cs.map Char.toLower = id.digits := by
  simp [ofDigits?, digits, Option.bind_eq_some_iff, ofBytes?_eq_some_iff,
    bytesOfDigits?_eq_some_iff]

/-! ### Hyphens, braces and the name space -/

/-- A text whose hyphens can be dropped is its digits with the hyphens put back. -/
theorem eq_joinGroups_of_dropHyphens? {ns : List Nat} {cs ds : List Char}
    (h : dropHyphens? ns cs = some ds) : cs = joinGroups '-' ns ds := by
  induction ns generalizing cs ds with
  | nil => exact nomatch h
  | cons n ns ih =>
    cases ns with
    | nil =>
      rw [dropHyphens?, Option.ite_none_right_eq_some] at h
      exact Option.some.inj h.2
    | cons m ns =>
      obtain ⟨rest, others, hdrop, hothers, rfl⟩ := dropHyphens?_cons_cons_eq_some_iff.1 h
      have hgroup : (cs.take n).length = n := by
        have hmore := congrArg List.length hdrop
        rw [List.length_drop, List.length_cons] at hmore
        rw [List.length_take]
        omega
      rw [joinGroups_cons_cons, List.take_left' hgroup, List.drop_left' hgroup, ← ih hothers,
        ← hdrop, List.take_append_drop]

/-- Where the hyphens stand does not depend on the case of letters. -/
theorem dropHyphens?_map_toLower_eq_some_iff {ns : List Nat} {cs ds : List Char} :
    dropHyphens? ns (cs.map Char.toLower) = some ds ↔
      ∃ others, dropHyphens? ns cs = some others ∧ others.map Char.toLower = ds := by
  induction ns generalizing cs ds with
  | nil => simp [dropHyphens?]
  | cons n ns ih =>
    cases ns with
    | nil => simp [dropHyphens?, Option.ite_none_right_eq_some, and_assoc]
    | cons m ns =>
      simp only [dropHyphens?_cons_cons_eq_some_iff, ← List.map_drop, ← List.map_take,
        List.map_eq_cons_iff, toLower_eq_iff (c := _) (d := '-') (by decide)]
      constructor
      · rintro ⟨-, others, ⟨-, rest, hdrop, rfl, rfl⟩, hothers, rfl⟩
        obtain ⟨others, hrest, rfl⟩ := ih.1 hothers
        exact ⟨_, ⟨rest, others, hdrop, hrest, rfl⟩, List.map_append⟩
      · rintro ⟨-, ⟨rest, others, hdrop, hrest, rfl⟩, rfl⟩
        exact ⟨_, _, ⟨'-', rest, hdrop, rfl, rfl⟩, ih.2 ⟨others, hrest, rfl⟩, List.map_append.symm⟩

theorem ofHyphenated?_eq_some_iff {cs : List Char} {id : InstanceId} :
    ofHyphenated? cs = some id ↔ cs.map Char.toLower = id.print := by
  have hdigits : id.digits.length = groupLengths.sum := id.length_digits
  have hread : ofHyphenated? cs = some id ↔
      ∃ ds, dropHyphens? groupLengths cs = some ds ∧ ds.map Char.toLower = id.digits := by
    simp [ofHyphenated?, Option.bind_eq_some_iff, ofDigits?_eq_some_iff]
  rw [hread, ← dropHyphens?_map_toLower_eq_some_iff]
  constructor
  · intro h
    exact eq_joinGroups_of_dropHyphens? h
  · intro h
    rw [h]
    exact dropHyphens?_joinGroups (by decide) hdigits

theorem braced_eq_some_iff {cs : List Char} {id : InstanceId} :
    cs.head? = some '\x7b' ∧ cs.getLast? = some '\x7d' ∧
        ofHyphenated? (cs.drop 1).dropLast = some id ↔
      cs.map Char.toLower = Spelling.braced.write id := by
  rw [ofHyphenated?_eq_some_iff, Spelling.write]
  constructor
  · rintro ⟨hfirst, hlast, hprint⟩
    obtain ⟨inner, rfl⟩ : ∃ inner, cs = '\x7b' :: (inner ++ ['\x7d']) := by
      cases cs with
      | nil => exact nomatch hfirst
      | cons c rest =>
        obtain rfl := Option.some.inj hfirst
        cases rest with
        | nil => exact absurd hlast (by decide)
        | cons d rest =>
          rw [List.getLast?_cons_cons] at hlast
          exact ⟨(d :: rest).dropLast, by rw [List.dropLast_append_getLast? _ hlast]⟩
    rw [List.drop_one, List.tail_cons, List.dropLast_concat] at hprint
    rw [List.map_cons, List.map_append, hprint]
    rfl
  · intro h
    obtain ⟨first, rest, rfl, hfirst, hrest⟩ := List.map_eq_cons_iff.1 h
    obtain ⟨inner, behind, rfl, hinner, hbehind⟩ := List.map_eq_append_iff.1 hrest
    obtain ⟨last, rfl, hlast⟩ := List.map_eq_singleton_iff.1 hbehind
    -- a brace has no other case
    rw [toLower_eq_iff (by decide)] at hfirst hlast
    subst hfirst hlast
    rw [List.drop_one, List.tail_cons, List.dropLast_concat]
    exact ⟨rfl, List.getLast?_concat (l := '\x7b' :: inner), hinner⟩

theorem named_eq_some_iff {cs : List Char} {id : InstanceId} :
    (cs.take 9).map Char.toLower = urnScheme ∧ ofHyphenated? (cs.drop 9) = some id ↔
      cs.map Char.toLower = Spelling.named.write id := by
  rw [ofHyphenated?_eq_some_iff, List.map_take, List.map_drop, Spelling.write]
  constructor
  · rintro ⟨hscheme, hprint⟩
    rw [← hscheme, ← hprint, List.take_append_drop]
  · intro h
    rw [h]
    exact ⟨List.take_left' rfl, List.drop_left' rfl⟩

/-- A text denotes an identifier exactly if it spells it. -/
theorem ofSpelling?_eq_some_iff {cs : List Char} {id : InstanceId} :
    ofSpelling? cs = some id ↔ id.IsSpelled cs := by
  rw [ofSpelling?]
  constructor
  · intro h
    split at h
    · exact ⟨.bare, ofDigits?_eq_some_iff.1 h⟩
    split at h
    · exact ⟨.hyphenated, ofHyphenated?_eq_some_iff.1 h⟩
    split at h
    next hbraces => exact ⟨.braced, braced_eq_some_iff.1 ⟨hbraces.2.1, hbraces.2.2, h⟩⟩
    split at h
    next hscheme => exact ⟨.named, named_eq_some_iff.1 ⟨hscheme.2, h⟩⟩
    next => contradiction
  · rintro ⟨spelling, h⟩
    have hlength : cs.length = spelling.length := Spelling.length_eq h
    -- the other spellings have other lengths
    cases spelling with
    | bare =>
      have hlength : cs.length = 32 := hlength
      rw [if_pos hlength]
      exact ofDigits?_eq_some_iff.2 h
    | hyphenated =>
      have hlength : cs.length = 36 := hlength
      rw [if_neg (by omega), if_pos hlength]
      exact ofHyphenated?_eq_some_iff.2 h
    | braced =>
      have hlength : cs.length = 38 := hlength
      obtain ⟨hfirst, hlast, hread⟩ := braced_eq_some_iff.2 h
      rw [if_neg (by omega), if_neg (by omega), if_pos ⟨hlength, hfirst, hlast⟩]
      exact hread
    | named =>
      have hlength : cs.length = 45 := hlength
      obtain ⟨hscheme, hread⟩ := named_eq_some_iff.2 h
      rw [if_neg (by omega), if_neg (by omega), if_neg (by omega), if_pos ⟨hlength, hscheme⟩]
      exact hread

theorem asInstanceId_eq_ok_iff {j : Json} {id : InstanceId} :
    asInstanceId j = .ok id ↔ ∃ core, j = .ofText (String.ofList core) ∧ id.IsSpelled core := by
  have hread : asInstanceId j = .ok id ↔ ∃ s, j = .ofText s ∧ id.IsSpelled s.toList := by
    rw [asInstanceId, bind_eq_ok_iff]
    refine exists_congr fun s => and_congr asText_eq_ok_iff ?_
    rw [← ofSpelling?_eq_some_iff]
    cases ofSpelling? s.toList with
    | none => simp [throw, throwThe, MonadExceptOf.throw]
    | some other => simp [pure, Except.pure]
  rw [hread]
  constructor
  · rintro ⟨s, rfl, hs⟩
    exact ⟨s.toList, by rw [String.ofList_toList], hs⟩
  · rintro ⟨core, rfl, hcore⟩
    exact ⟨String.ofList core, rfl, by rwa [String.toList_ofList]⟩

/-- Any identifier is read back from its written form and from its JSON text. A text is read as an
identifier exactly if it spells that identifier in one of the four ways, in letters of either case,
with any blanks around it. From a JSON text an identifier is read exactly if the text denotes a
string with such a spelling and nothing around it. -/
theorem read_exactly_if_spelled (id : InstanceId) :
    ofText? id.text = some id ∧ decodeText asInstanceId id.toJson.text = some id ∧
      (∀ s, ofText? s = some id ↔ id.IsSpelled (trim s.toList)) ∧
      (∀ s, ofText? s = some id ↔ ∃ core, IsPadded s.toList core ∧ id.IsSpelled core) ∧
      ∀ s, decodeText asInstanceId s = some id ↔
        ∃ core, Json.parse s = some (.ofText (String.ofList core)) ∧ id.IsSpelled core := by
  have htrimmed : ∀ s, ofText? s = some id ↔ id.IsSpelled (trim s.toList) :=
    fun s => ofSpelling?_eq_some_iff
  have hpadded : ∀ s, ofText? s = some id ↔ ∃ core, IsPadded s.toList core ∧ id.IsSpelled core :=
    fun s => (htrimmed s).trans (trim_iff_exists_isPadded (fun _ h => h.isBlank) s.toList)
  have hprint : id.IsSpelled id.print := ofSpelling?_eq_some_iff.1 id.ofSpelling?_print
  refine ⟨?_, decodeText_text id.asInstanceId_toJson, htrimmed, hpadded, ?_⟩
  · refine (hpadded id.text).2 ⟨id.print, ⟨[], [], nofun, nofun, ?_⟩, hprint⟩
    rw [text, String.toList_ofList, List.nil_append, List.append_nil]
  · intro s
    rw [decodeText_eq_some_iff]
    constructor
    · rintro ⟨j, hparse, hj⟩
      obtain ⟨core, rfl, hcore⟩ := asInstanceId_eq_ok_iff.1 hj
      exact ⟨core, hparse, hcore⟩
    · rintro ⟨core, hparse, hcore⟩
      exact ⟨_, hparse, asInstanceId_eq_ok_iff.2 ⟨core, rfl, hcore⟩⟩

/-- One identifier, in braces with blanks around it, behind the name space with a letter that is
escaped in the JSON text, and with a blank in front of it where none may be. -/
theorem read_in_braces_between_blanks :
    let id : InstanceId := ⟨#v[0x6f, 0x96, 0x19, 0xff, 0x8b, 0x86, 0xd0, 0x11,
      0xb4, 0x2d, 0x00, 0xcf, 0x4f, 0xc9, 0x64, 0xff]⟩
    ofText? "\u00a0\u2028\x7b6F9619FF-8b86-D011-b42d-00cf4FC964FF\x7d\u3000" = some id ∧
      decodeText asInstanceId " \"\\u0055rn:UUID:6F9619FF-8B86-D011-B42D-00CF4FC964FF\"" =
        some id ∧
      decodeText asInstanceId "\" 6f9619ff8b86d011b42d00cf4fc964ff\"" ≠ some id := by
  intro id
  obtain ⟨-, -, -, hpadded, hjson⟩ := read_exactly_if_spelled id
  have hbraced : id.IsSpelled "\x7b6F9619FF-8b86-D011-b42d-00cf4FC964FF\x7d".toList :=
    ⟨.braced, by decide +kernel⟩
  have hnamed : id.IsSpelled "Urn:UUID:6F9619FF-8B86-D011-B42D-00CF4FC964FF".toList :=
    ⟨.named, by decide +kernel⟩
  refine ⟨?_, ?_, ?_⟩
  · refine (hpadded _).2 ⟨_, ⟨['\u00a0', '\u2028'], ['\u3000'], ?_, ?_, ?_⟩, hbraced⟩
    · exact List.all_eq_true.1 (by decide)
    · exact List.all_eq_true.1 (by decide)
    · decide +kernel
  · exact (hjson _).2 ⟨_, by rfl, hnamed⟩
  · intro h
    obtain ⟨core, hparse, hcore⟩ := (hjson _).1 h
    have hblank : " 6f9619ff8b86d011b42d00cf4fc964ff" = String.ofList core :=
      Literal.text.inj (Json.string.inj (Option.some.inj hparse))
    have hmem : ' ' ∈ core := by
      rw [← String.toList_ofList (l := core), ← hblank]
      decide +kernel
    exact absurd (hcore.isBlank ' ' hmem) (by decide)

end GlobalTransaction.InstanceId
