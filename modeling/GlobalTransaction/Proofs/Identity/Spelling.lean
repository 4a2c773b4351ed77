import GlobalTransaction.Identity.InstanceId
import Mathlib.Algebra.GroupWithZero.Nat

/-!
# The written form of identifiers is read back

## Main results

* `InstanceId.ofSpelling?_print` — the written form denotes the identifier
* `InstanceId.asInstanceId_toJson` — so does its form in a JSON text
-/

set_option autoImplicit false

namespace GlobalTransaction.InstanceId

open Text

/-! ### Groups of digits -/

theorem joinGroups_cons_cons (separator : Char) (n m : Nat) (ns : List Nat) (cs : List Char) :
    joinGroups separator (n :: m :: ns) cs =
      cs.take n ++ separator :: joinGroups separator (m :: ns) (cs.drop n) := rfl

/-- The hyphen behind a group that is not the last one, and what follows it. -/
theorem dropHyphens?_cons_cons_eq_some_iff {n m : Nat} {ns : List Nat} {cs ds : List Char} :
    dropHyphens? (n :: m :: ns) cs = some ds ↔ ∃ rest others, cs.drop n = '-' :: rest ∧
      dropHyphens? (m :: ns) rest = some others ∧ cs.take n ++ others = ds := by
  rw [dropHyphens?]
  · split
    next rest hrest => simp [hrest]
    next hnone =>
      constructor
      · intro h
        contradiction
      · rintro ⟨rest, -, hrest, -⟩
        exact absurd hrest (hnone rest)
  · exact List.cons_ne_nil m ns

theorem dropHyphens?_joinGroups {ns : List Nat} (hne : ns ≠ []) {cs : List Char}
    (hlength : cs.length = ns.sum) : dropHyphens? ns (joinGroups '-' ns cs) = some cs := by
  -- the last group has no hyphen behind it, so it is told apart
  induction ns generalizing cs with
  | nil => exact absurd rfl hne
  | cons n ns ih =>
    cases ns with
    | nil => exact if_pos (hlength.trans (Nat.add_zero n))
    | cons m ns =>
      have hgroup : (cs.take n).length = n := by
        rw [List.length_take, List.sum_cons] at *
        omega
      have hrest : (cs.drop n).length = (m :: ns).sum := by
        rw [List.length_drop, hlength, List.sum_cons, Nat.add_sub_cancel_left]
      have hmore : m :: ns ≠ [] := List.cons_ne_nil m ns
      rw [joinGroups_cons_cons, dropHyphens?_cons_cons_eq_some_iff]
      refine ⟨_, _, List.drop_left' hgroup, ih hmore hrest, ?_⟩
      rw [List.take_left' hgroup, List.take_append_drop]

theorem length_joinGroups {ns : List Nat} {cs : List Char} (separator : Char)
    (hlength : cs.length = ns.sum) :
    (joinGroups separator ns cs).length = cs.length + (ns.length - 1) := by
  induction ns generalizing cs with
  | nil => rfl
  | cons n ns ih =>
    cases ns with
    | nil => rfl
    | cons m ns =>
      have hrest : (cs.drop n).length = (m :: ns).sum := by
        rw [List.length_drop, hlength, List.sum_cons, Nat.add_sub_cancel_left]
      simp only [joinGroups, List.length_append, List.length_cons, ih hrest]
      rw [List.length_take, List.length_drop, List.sum_cons] at *
      omega

/-! ### Digits -/

@[simp] theorem length_byteDigits (b : UInt8) : (byteDigits b).length = 2 :=
  length_hexadecimal 2 b.toNat

theorem bytesOfDigits?_flatMap (bytes : List UInt8) :
    bytesOfDigits? (bytes.flatMap byteDigits) = some bytes := by
  induction bytes with
  | nil => rfl
  | cons b bytes ih =>
    have hvalue := ofHexadecimal?_hexadecimal 2 b.toNat
    rw [Nat.mod_eq_of_lt b.toNat_lt] at hvalue
    simp only [hexadecimal, List.nil_append, List.cons_append] at hvalue
    rw [List.flatMap_cons, byteDigits]
    simp only [hexadecimal, List.nil_append, List.cons_append]
    rw [bytesOfDigits?, hvalue, ih]
    simp

theorem ofBytes?_toList (id : InstanceId) : ofBytes? id.bytes.toList = some id := by
  obtain ⟨⟨bytes, hbytes⟩⟩ := id
  simp [ofBytes?, hbytes]

theorem length_digits (id : InstanceId) : id.digits.length = 32 := by
  simp [digits, List.length_flatMap, List.map_const']

theorem length_print (id : InstanceId) : id.print.length = 36 := by
  have hdigits : id.digits.length = groupLengths.sum := id.length_digits
  rw [print, length_joinGroups '-' hdigits, id.length_digits]
  rfl

/-- The written form of an identifier denotes it. -/
theorem ofSpelling?_print (id : InstanceId) : ofSpelling? id.print = some id := by
  have hdigits : id.digits.length = groupLengths.sum := id.length_digits
  have hlength : id.print.length = 36 := id.length_print
  have hdrop : dropHyphens? groupLengths id.print = some id.digits :=
    dropHyphens?_joinGroups (by decide) hdigits
  have hbytes : bytesOfDigits? id.digits = some id.bytes.toList := bytesOfDigits?_flatMap _
  simp [ofSpelling?, hlength, ofHyphenated?, hdrop, ofDigits?, hbytes, ofBytes?_toList]

@[simp] theorem asInstanceId_toJson (id : InstanceId) : asInstanceId id.toJson = .ok id := by
  simp [asInstanceId, toJson, text, ofSpelling?_print, bind, Except.bind]
  rfl

end GlobalTransaction.InstanceId
