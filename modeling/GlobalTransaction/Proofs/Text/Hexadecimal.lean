import GlobalTransaction.Text.Blank
import GlobalTransaction.Text.Hexadecimal
import Mathlib.Algebra.GroupWithZero.Nat
import Mathlib.Data.List.Induction

/-!
# Hexadecimal digits of either case

Which runs of characters are read as a number: those that are, in lower case, what is written for
it.

## Main results

* `Text.rel_toLower` — what relates a character to its lower case
* `Text.hexValue?_eq_some_iff`, `Text.ofHexadecimal?_eq_some_iff` — the digits that spell a number
-/

set_option autoImplicit false

namespace GlobalTransaction.Text

/-! ### Letters of either case -/

/-- What holds of all ASCII characters is known by trying them. -/
theorem forall_ascii {P : Char → Prop} (h : ∀ n : Fin 128, P (Char.ofNat n)) {c : Char}
    (hc : c.toNat < 128) : P c := by
  have hn := h ⟨c.toNat, hc⟩
  rwa [Char.ofNat_toNat] at hn

theorem toLower_of_not_ascii {c : Char} (h : 128 ≤ c.toNat) : c.toLower = c := by
  have hupper : ¬(65 ≤ c.val ∧ c.val ≤ 90) := by
    rintro ⟨-, hle⟩
    have hle : c.toNat ≤ 90 := UInt32.le_iff_toNat_le.1 hle
    omega
  exact dif_neg hupper

/-- A character and its lower case are related if every character is related to itself, and every
ASCII character to its lower case. -/
theorem rel_toLower {R : Char → Char → Prop} (hself : ∀ c, R c c)
    (hascii : ∀ n : Fin 128, R (Char.ofNat n) (Char.ofNat n).toLower) (c : Char) :
    R c c.toLower := by
  by_cases hc : c.toNat < 128
  · exact forall_ascii (P := fun c => R c c.toLower) hascii hc
  · rw [toLower_of_not_ascii (Nat.le_of_not_lt hc)]
    exact hself c

/-- Nothing but a letter has another lower case than itself. -/
theorem toLower_eq_iff {c d : Char} (hd : d.isAlpha = false) : c.toLower = d ↔ c = d := by
  have hkept : c.toLower.isAlpha = false ∨ c.isAlpha = false → c.toLower = c :=
    rel_toLower (R := fun c lower => lower.isAlpha = false ∨ c.isAlpha = false → lower = c)
      (fun _ _ => rfl) (by decide) c
  constructor
  · rintro rfl
    exact (hkept (.inl hd)).symm
  · rintro rfl
    exact hkept (.inr hd)

theorem isBlank_toLower (c : Char) : isBlank c.toLower = isBlank c :=
  rel_toLower (R := fun c lower => isBlank lower = isBlank c) (fun _ => rfl) (by decide) c

/-! ### Hexadecimal digits -/

/-- Only ASCII characters are hexadecimal digits. -/
theorem hexValue?_of_not_ascii {c : Char} (h : 128 ≤ c.toNat) : hexValue? c = none := by
  have hlarge : ∀ last : Char, last.toNat < 128 → ¬c ≤ last := by
    intro last hlast hle
    have hle : c.toNat ≤ last.toNat := hle
    omega
  rw [hexValue?, if_neg fun hc => hlarge '9' (by decide) hc.2,
    if_neg fun hc => hlarge 'f' (by decide) hc.2, if_neg fun hc => hlarge 'F' (by decide) hc.2]

theorem hexValue?_toLower (c : Char) : hexValue? c.toLower = hexValue? c :=
  rel_toLower (R := fun c lower => hexValue? lower = hexValue? c) (fun _ => rfl) (by decide) c

/-- A character has a value if it is, in lower case, the digit for that value. -/
theorem hexValue?_eq_some_iff {c : Char} {v : Nat} :
    hexValue? c = some v ↔ v < 16 ∧ c.toLower = hexDigit v := by
  constructor
  · intro h
    have hascii : c.toNat < 128 := by
      by_contra hlarge
      exact nomatch h.symm.trans (hexValue?_of_not_ascii (Nat.le_of_not_lt hlarge))
    have hdigit := forall_ascii (P := fun c => (hexValue? c).all fun v =>
      v < 16 ∧ c.toLower = hexDigit v) (by decide) hascii
    simpa [h] using hdigit
  · rintro ⟨hv, hlower⟩
    rw [← hexValue?_toLower, hlower, hexValue?_hexDigit, Nat.mod_eq_of_lt hv]

/-- A run of digits spells a number if it is, in lower case, that number in as many digits. -/
theorem ofHexadecimal?_eq_some_iff {ds : List Char} {n : Nat} :
    ofHexadecimal? ds = some n ↔
      n < 16 ^ ds.length ∧ ds.map Char.toLower = hexadecimal ds.length n := by
  -- the last digit is the remainder by sixteen, those in front of it are the quotient
  induction ds using List.reverseRecOn generalizing n with
  | nil => simp [ofHexadecimal?, hexadecimal, eq_comm]
  | append_singleton ds d ih =>
    have hread : ofHexadecimal? (ds ++ [d]) = some n ↔ ∃ value, ofHexadecimal? ds = some value ∧
        ∃ v, hexValue? d = some v ∧ 16 * value + v = n := by
      simp [ofHexadecimal?, List.foldlM_append, Option.bind_eq_some_iff]
    have hwritten : (ds ++ [d]).map Char.toLower = hexadecimal (ds.length + 1) n ↔
        ds.map Char.toLower = hexadecimal ds.length (n / 16) ∧ d.toLower = hexDigit n := by
      rw [List.map_append, hexadecimal, List.map_singleton, List.append_singleton_inj]
    have hlast : hexDigit n = hexDigit (n % 16) := by rw [hexDigit, hexDigit, Nat.mod_mod]
    rw [hread, List.length_append, List.length_singleton, hwritten, hlast, pow_succ]
    constructor
    · rintro ⟨value, hvalue, v, hv, rfl⟩
      obtain ⟨hlt, hds⟩ := ih.1 hvalue
      obtain ⟨hv, hd⟩ := hexValue?_eq_some_iff.1 hv
      have hquotient : (16 * value + v) / 16 = value := by omega
      have hremainder : (16 * value + v) % 16 = v := by omega
      rw [hquotient, hremainder]
      exact ⟨by omega, hds, hd⟩
    · rintro ⟨hlt, hds, hd⟩
      have hv : hexValue? d = some (n % 16) :=
        hexValue?_eq_some_iff.2 ⟨Nat.mod_lt n (by decide), hd⟩
      exact ⟨n / 16, ih.2 ⟨by omega, hds⟩, n % 16, hv, Nat.div_add_mod n 16⟩

theorem isBlank_of_mem_hexadecimal {width n : Nat} {c : Char} (h : c ∈ hexadecimal width n) :
    isBlank c = false := by
  have hdigit : ∀ k : Fin 16, isBlank (Nat.digitChar k) = false := by decide
  induction width generalizing n with
  | zero => exact nomatch h
  | succ width ih =>
    obtain h | h := List.mem_append.1 h
    · exact ih h
    · rw [List.mem_singleton.1 h]
      exact hdigit ⟨n % 16, Nat.mod_lt n (by decide)⟩

end GlobalTransaction.Text
