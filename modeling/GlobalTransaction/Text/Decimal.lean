/-!
# Decimal numerals

Natural numbers and integers as decimal digits, and back.

## Main definitions

* `Text.decimal`, `Text.paddedDecimal`, `Text.signedDecimal` — the digits of a number
* `Text.ofDecimal` — the number that a run of digits spells

## Main results

* `Text.ofDecimal_decimal`, `Text.ofDecimal_paddedDecimal` — digits spell the number they were
  written for
* `Text.decimal_injective` — different numbers have different digits
-/

namespace GlobalTransaction.Text

/-- The decimal digits of a natural number, without leading zeros. -/
def decimal (n : Nat) : List Char := Nat.toDigits 10 n

/-- The decimal digits of a natural number, with zeros in front up to the width. -/
def paddedDecimal (width n : Nat) : List Char :=
  List.replicate (width - (decimal n).length) '0' ++ decimal n

/-- The digits of an integer, behind a minus sign when it is negative. -/
def signedDecimal (i : Int) : List Char :=
  if i < 0 then '-' :: decimal i.natAbs else decimal i.natAbs

/-- The number that a run of decimal digits spells. Leading zeros do not matter. -/
def ofDecimal (ds : List Char) : Nat := Nat.ofDigitChars 10 ds 0

/-- The digits at the beginning of a text, and what follows them. -/
def spanDigits (cs : List Char) : List Char × List Char :=
  (cs.takeWhile Char.isDigit, cs.dropWhile Char.isDigit)

/-! ### Reading back what was written -/

@[simp] theorem ofDecimal_decimal (n : Nat) : ofDecimal (decimal n) = n :=
  Nat.ofDigitChars_ten_toDigits

theorem ofDecimal_replicate_append (k : Nat) (ds : List Char) :
    ofDecimal (List.replicate k '0' ++ ds) = ofDecimal ds := by
  rw [ofDecimal, Nat.ofDigitChars_append, Nat.ofDigitChars_replicate_zero, Nat.mul_zero, ofDecimal]

@[simp] theorem ofDecimal_paddedDecimal (width n : Nat) :
    ofDecimal (paddedDecimal width n) = n := by
  rw [paddedDecimal, ofDecimal_replicate_append, ofDecimal_decimal]

theorem decimal_injective {m n : Nat} (h : decimal m = decimal n) : m = n := by
  rw [← ofDecimal_decimal m, h, ofDecimal_decimal]

theorem isDigit_of_mem_decimal {n : Nat} {c : Char} (h : c ∈ decimal n) : c.isDigit :=
  Nat.isDigit_of_mem_toDigits (by decide) (by decide) h

theorem isDigit_of_mem_paddedDecimal {width n : Nat} {c : Char} (h : c ∈ paddedDecimal width n) :
    c.isDigit := by
  rcases List.mem_append.1 h with h | h
  · rw [List.eq_of_mem_replicate h]; decide
  · exact isDigit_of_mem_decimal h

theorem decimal_ne_nil (n : Nat) : decimal n ≠ [] := by
  intro h
  have hlen : 0 < (Nat.toDigits 10 n).length := Nat.length_toDigits_pos
  rw [show Nat.toDigits 10 n = [] from h] at hlen
  exact absurd hlen (by decide)

@[simp] theorem spanDigits_append (ds cs : List Char) (hds : ∀ d ∈ ds, d.isDigit)
    (hcs : ∀ c, cs.head? = some c → c.isDigit = false) : spanDigits (ds ++ cs) = (ds, cs) := by
  induction ds with
  | nil =>
    cases cs with
    | nil => rfl
    | cons c cs => simp [spanDigits, hcs c rfl]
  | cons d ds ih =>
    have hd : d.isDigit := hds d (by simp)
    have := ih fun x hx => hds x (by simp [hx])
    simp only [spanDigits, Prod.mk.injEq] at this
    simp [spanDigits, hd, this.1, this.2]

end GlobalTransaction.Text
