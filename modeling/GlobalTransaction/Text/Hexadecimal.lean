/-!
# Hexadecimal digits

Runs of hexadecimal digits of a fixed width, written in lower case and read in either case.

## Main definitions

* `Text.hexDigit` and `Text.hexValue?` — one digit and its value
* `Text.hexadecimal` — a number in a fixed number of digits
* `Text.ofHexadecimal?` — the number that a run of digits spells

## Main results

* `Text.hexValue?_hexDigit` — a digit has the value it was written for
-/

namespace GlobalTransaction.Text

/-- The lower-case digit of a value below sixteen. -/
def hexDigit (n : Nat) : Char := Nat.digitChar (n % 16)

/-- The value of a hexadecimal digit of either case. -/
def hexValue? (c : Char) : Option Nat :=
  if '0' ≤ c ∧ c ≤ '9' then some (c.toNat - '0'.toNat)
  else if 'a' ≤ c ∧ c ≤ 'f' then some (c.toNat - 'a'.toNat + 10)
  else if 'A' ≤ c ∧ c ≤ 'F' then some (c.toNat - 'A'.toNat + 10)
  else none

/-- The last `width` hexadecimal digits of a number, in lower case. -/
def hexadecimal : (width n : Nat) → List Char
  | 0, _ => []
  | width + 1, n => hexadecimal width (n / 16) ++ [hexDigit n]

/-- The number that a run of hexadecimal digits spells, unless another character is among them. -/
def ofHexadecimal? (ds : List Char) : Option Nat :=
  ds.foldlM (fun value d => (hexValue? d).map (16 * value + ·)) 0

/-- The hexadecimal digits of a number without leading zeros. -/
def shortHexadecimal (n : Nat) : List Char := Nat.toDigits 16 n

/-! ### Laws -/

theorem hexValue?_hexDigit (n : Nat) : hexValue? (hexDigit n) = some (n % 16) := by
  have h : ∀ k : Fin 16, hexValue? (Nat.digitChar k) = some k.val := by decide
  exact h ⟨n % 16, Nat.mod_lt _ (by decide)⟩

@[simp] theorem length_hexadecimal (width n : Nat) : (hexadecimal width n).length = width := by
  induction width generalizing n with
  | zero => rfl
  | succ width ih => simp [hexadecimal, ih]

theorem ofHexadecimal?_hexadecimal (width n : Nat) :
    ofHexadecimal? (hexadecimal width n) = some (n % Nat.pow 16 width) := by
  induction width generalizing n with
  | zero => simp [hexadecimal, ofHexadecimal?, Nat.mod_one]
  | succ width ih =>
    have hprev := ih (n / 16)
    simp only [ofHexadecimal?] at hprev ⊢
    simp only [hexadecimal, List.foldlM_append, hprev, Option.bind_eq_bind, Option.bind_some,
      List.foldlM_cons, List.foldlM_nil, hexValue?_hexDigit, Option.map_some]
    have hpow : Nat.pow 16 (width + 1) = 16 * Nat.pow 16 width := Nat.mul_comm _ _
    rw [hpow, Nat.mod_mul, Nat.add_comm]
    rfl

end GlobalTransaction.Text
