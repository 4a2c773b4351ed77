import GlobalTransaction.Text.Blank
import GlobalTransaction.Text.Decimal

/-!
# Settings from the environment

A numeric setting is a variable of the environment. Its value counts when, without the
blanks around it, it is a numeral: an optional plus sign and one or more ASCII digits,
for a positive number of 64 bits. Every other value is as good as none, and the default
applies.

## Main definitions

* `Environment` — the bytes of each variable that is set
* `Environment.text?` — the value of a variable that is a text
* `Text.word?` — the number of 64 bits that a numeral denotes
* `Text.nonzeroWord?` — the same where zero is no value
* `Environment.positive`, `Environment.nonzero` — a numeric setting, as a number that is checked
  and as one that cannot be zero
-/

namespace GlobalTransaction

/-- The value of each variable, in bytes; `none` where it is not set. -/
abbrev Environment := String → Option ByteArray

namespace Text

/-- A numeral without its plus sign. -/
def dropPlus : List Char → List Char
  | '+' :: rest => rest
  | cs => cs

/-- The number that digits denote, given the number before them, unless one is no digit or the
number leaves the 64 bits. -/
def wordFrom? : (value : Nat) → List Char → Option Nat
  | value, [] => some value
  | value, c :: rest =>
    if c.isDigit ∧ 10 * value + (c.toNat - '0'.toNat) < UInt64.size then
      wordFrom? (10 * value + (c.toNat - '0'.toNat)) rest
    else none

/-- The number of 64 bits that a numeral denotes: an optional plus sign, and digits. -/
def word? (cs : List Char) : Option Nat :=
  match dropPlus cs with
  | [] => none
  | ds => wordFrom? 0 ds

/-- The number of 64 bits that a numeral denotes, of a type without zero. -/
def nonzeroWord? (cs : List Char) : Option { n : Nat // 0 < n } :=
  (word? cs).bind fun n => if h : 0 < n then some ⟨n, h⟩ else none

end Text

namespace Environment

/-- The environment without variables. -/
def empty : Environment := fun _ => none

/-- The environment in which one more variable has a value. -/
def set (env : Environment) (name : String) (value : ByteArray) : Environment :=
  fun n => if n = name then some value else env n

/-- The value of a variable that is a text. -/
def text? (env : Environment) (name : String) : Option String :=
  (env name).bind String.fromUTF8?

/-- The number of a setting: that of its variable if it denotes a positive one, else the
default. -/
def positive (env : Environment) (name : String) (default : Nat) : Nat :=
  let number := (env.text? name).bind fun s => Text.word? (Text.trim s.toList)
  (number.filter (0 < ·)).getD default

/-- The number of a setting whose type has no zero. -/
def nonzero (env : Environment) (name : String) (default : { n : Nat // 0 < n }) :
    { n : Nat // 0 < n } :=
  ((env.text? name).bind fun s => Text.nonzeroWord? (Text.trim s.toList)).getD default

/-- A setting with a positive default is never zero. -/
theorem positive_pos (env : Environment) (name : String) {default : Nat} (h : 0 < default) :
    0 < env.positive name default := by
  simp only [positive]
  cases hn : ((env.text? name).bind fun s => Text.word? (Text.trim s.toList)).filter (0 < ·) with
  | none => simpa using h
  | some n => simpa using (Option.filter_eq_some_iff.1 hn).2

end Environment

end GlobalTransaction
