import GlobalTransaction.Text.Decimal
import Mathlib.Data.List.Induction
import Mathlib.Data.Nat.Digits.Defs

/-!
# The shape of decimal numerals

How many digits a numeral has, what it begins with, and what is left of it when it is cut short.

## Main results

* `Text.head?_decimal` — a numeral has no leading zero
* `Text.length_paddedDecimal` — a padded numeral has the width that is asked for, or more
* `Text.eq_decimal_of_append` — a numeral that is cut short is the numeral of a quotient
-/

set_option autoImplicit false

namespace GlobalTransaction.Text

theorem decimal_zero : decimal 0 = ['0'] := Nat.toDigits_zero 10

/-- Only zero is written with a zero in front. -/
theorem head?_decimal {n : Nat} (h : 0 < n) : (decimal n).head? ≠ some '0' := by
  induction n using Nat.strong_induction_on with
  | _ n ih =>
    rw [decimal, Nat.toDigits_eq_if (by decide)]
    split
    next hlt =>
      have hdigit : ∀ k : Fin 10, 0 < k.val → [Nat.digitChar k].head? ≠ some '0' := by decide
      exact hdigit ⟨n, hlt⟩ h
    next hge =>
      have hfirst := ih (n / 10) (by omega) (by omega)
      have hne : Nat.toDigits 10 (n / 10) ≠ [] := decimal_ne_nil _
      rwa [List.head?_append, List.head?_eq_some_head hne, Option.some_or, ← List.head?_eq_some_head]

theorem length_decimal_le_iff {n width : Nat} (h : 0 < width) :
    (decimal n).length ≤ width ↔ n < 10 ^ width :=
  Nat.length_toDigits_le_iff (by decide) h

theorem length_paddedDecimal (width n : Nat) :
    (paddedDecimal width n).length = max width (decimal n).length := by
  simp only [paddedDecimal, List.length_append, List.length_replicate]
  omega

theorem length_paddedDecimal_of_lt {width n : Nat} (hwidth : 0 < width) (h : n < 10 ^ width) :
    (paddedDecimal width n).length = width := by
  rw [length_paddedDecimal, max_eq_left ((length_decimal_le_iff hwidth).2 h)]

/-- A numeral that is as long as its width has no zeros in front of it. -/
theorem paddedDecimal_of_le {width n : Nat} (h : width ≤ (decimal n).length) :
    paddedDecimal width n = decimal n := by
  rw [paddedDecimal, Nat.sub_eq_zero_of_le h, List.replicate_zero, List.nil_append]

/-- A numeral begins with a digit. -/
theorem exists_decimal (n : Nat) : ∃ d ds, decimal n = d :: ds ∧ d.isDigit = true := by
  obtain ⟨d, ds, hds⟩ := List.exists_cons_of_ne_nil (decimal_ne_nil n)
  exact ⟨d, ds, hds, isDigit_of_mem_decimal (hds ▸ List.mem_cons_self)⟩

theorem exists_paddedDecimal (width n : Nat) :
    ∃ d ds, paddedDecimal width n = d :: ds ∧ d.isDigit = true := by
  have hne : paddedDecimal width n ≠ [] :=
    List.append_ne_nil_of_right_ne_nil _ (decimal_ne_nil n)
  obtain ⟨d, ds, hds⟩ := List.exists_cons_of_ne_nil hne
  exact ⟨d, ds, hds, isDigit_of_mem_paddedDecimal (hds ▸ List.mem_cons_self)⟩

/-- One more digit behind a numeral. -/
theorem decimal_append_decimal {n d : Nat} (hn : 0 < n) (hd : d < 10) :
    decimal n ++ decimal d = decimal (10 * n + d) :=
  Nat.toDigits_append_toDigits (by decide) hn hd

/-- A numeral that is cut short is the numeral of a quotient. -/
theorem eq_decimal_of_append {n : Nat} {ds rest : List Char} (h : decimal n = ds ++ rest)
    (hds : ds ≠ []) : ds = decimal (n / 10 ^ rest.length) := by
  induction rest using List.reverseRecOn generalizing n with
  | nil =>
    rw [List.length_nil, Nat.pow_zero, Nat.div_one, h, List.append_nil]
  | append_singleton rest d ih =>
    rw [← List.append_assoc] at h
    -- there is a digit in front of the last one
    have hlt : ¬n < 10 := by
      intro hlt
      have hlength := congrArg List.length h
      rw [decimal, Nat.toDigits_of_lt_base hlt, List.length_append, List.length_append] at hlength
      have := List.length_pos_iff.2 hds
      simp only [List.length_singleton] at hlength
      omega
    rw [decimal, Nat.toDigits_eq_if (by decide), if_neg hlt] at h
    have hfront : decimal (n / 10) = ds ++ rest := (List.append_inj' h rfl).1
    rw [ih hfront, List.length_append, List.length_singleton, Nat.div_div_eq_div_mul,
      Nat.pow_succ']

end GlobalTransaction.Text
