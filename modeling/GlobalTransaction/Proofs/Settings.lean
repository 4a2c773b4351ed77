import GlobalTransaction.Resource.StatusCache
import GlobalTransaction.Routing.Router
import GlobalTransaction.Text.Decimal
import Mathlib.Algebra.GroupWithZero.Nat

/-!
# One grammar for all numeric settings

The number of positions of a node, the size of the cache and its idle time are read from variables
of the environment by the same rule, though the second one is read as a number that cannot be zero.
A value counts if it is a numeral with blanks around it, for a positive number of 64 bits.

## Main definitions

* `Text.IsNumeral` — an optional plus sign, and digits that denote a number
* `Environment.Says` — the value of a variable is a numeral for a number that may be set
* `Environment.IsReadByRule` — a setting is what its variable says, or else its default

## Main results

* `Text.word?_eq_some_iff` — a number of 64 bits is read exactly if a numeral denotes it
* `Environment.nonzero_val` — a number that cannot be zero is read like one that is checked
* `Environment.numeric_settings_read_alike` — all numeric settings are read by the rule
-/

set_option autoImplicit false

namespace GlobalTransaction

namespace Text

/-! ### Numerals -/

/-- A numeral: an optional plus sign, and one or more digits that denote the number. -/
def IsNumeral (cs : List Char) (n : Nat) : Prop :=
  ∃ ds, (cs = ds ∨ cs = '+' :: ds) ∧ ds ≠ [] ∧ (∀ d ∈ ds, d.isDigit) ∧ ofDecimal ds = n

/-- Further digits never make a number smaller. -/
theorem le_ofDigitChars (ds : List Char) (value : Nat) : value ≤ Nat.ofDigitChars 10 ds value := by
  induction ds generalizing value with
  | nil => exact Nat.le_refl value
  | cons d ds ih =>
    have hmore := ih (10 * value + (d.toNat - '0'.toNat))
    rw [Nat.ofDigitChars_cons]
    omega

/-- Digits are read up to the end of 64 bits: what leaves them on the way never comes back. -/
theorem wordFrom?_eq_some_iff {value n : Nat} {cs : List Char} (hvalue : value < UInt64.size) :
    wordFrom? value cs = some n ↔
      (∀ c ∈ cs, c.isDigit) ∧ Nat.ofDigitChars 10 cs value = n ∧ n < UInt64.size := by
  induction cs generalizing value with
  | nil =>
    rw [wordFrom?, Option.some.injEq]
    constructor
    · rintro rfl
      exact ⟨nofun, rfl, hvalue⟩
    · rintro ⟨-, hn, -⟩
      exact hn
  | cons c cs ih =>
    rw [wordFrom?, List.forall_mem_cons, Nat.ofDigitChars_cons]
    split
    next hstep =>
      rw [ih hstep.2, and_assoc, and_iff_right hstep.1]
    next hstep =>
      have hmore := le_ofDigitChars cs (10 * value + (c.toNat - '0'.toNat))
      constructor
      · intro h
        exact nomatch h
      · rintro ⟨⟨hc, -⟩, hn, hlt⟩
        exact absurd ⟨hc, by omega⟩ hstep

theorem eq_dropPlus_or (cs : List Char) : cs = dropPlus cs ∨ cs = '+' :: dropPlus cs := by
  rw [dropPlus.eq_def]
  split
  · exact .inr rfl
  · exact .inl rfl

/-- Digits have no sign that could be dropped. -/
theorem dropPlus_of_isDigit {ds : List Char} (h : ∀ d ∈ ds, d.isDigit) : dropPlus ds = ds := by
  obtain hds | hds := eq_dropPlus_or ds
  · exact hds.symm
  · have hplus : '+' ∈ ds := hds ▸ List.mem_cons_self
    exact absurd (h '+' hplus) (by decide)

/-- A number of 64 bits is read exactly if a numeral denotes it. -/
theorem word?_eq_some_iff {cs : List Char} {n : Nat} :
    word? cs = some n ↔ IsNumeral cs n ∧ n < UInt64.size := by
  have hread : word? cs = some n ↔ dropPlus cs ≠ [] ∧ wordFrom? 0 (dropPlus cs) = some n := by
    rw [word?]
    cases dropPlus cs <;> simp
  rw [hread, wordFrom?_eq_some_iff (by decide)]
  constructor
  · rintro ⟨hne, hdigits, hn, hlt⟩
    exact ⟨⟨dropPlus cs, eq_dropPlus_or cs, hne, hdigits, hn⟩, hlt⟩
  · rintro ⟨⟨ds, rfl | rfl, hne, hdigits, hn⟩, hlt⟩
    · rw [dropPlus_of_isDigit hdigits]
      exact ⟨hne, hdigits, hn, hlt⟩
    · exact ⟨hne, hdigits, hn, hlt⟩

/-- No numeral has a blank in it. -/
theorem IsNumeral.isBlank {cs : List Char} {n : Nat} (h : IsNumeral cs n) :
    ∀ c ∈ cs, isBlank c = false := by
  obtain ⟨ds, rfl | rfl, -, hdigits, -⟩ := h
  · exact fun c hc => isBlank_of_isDigit (hdigits c hc)
  · rw [List.forall_mem_cons]
    exact ⟨by decide, fun c hc => isBlank_of_isDigit (hdigits c hc)⟩

end Text

namespace Environment

open Text

variable {env : Environment} {name : String} {n : Nat}

/-- The value of a variable is a numeral, but for blanks around it, for a positive number of 64
bits. -/
def Says (env : Environment) (name : String) (n : Nat) : Prop :=
  ∃ (s : String) (core : List Char), env name = some s.toUTF8 ∧ IsPadded s.toList core ∧
    IsNumeral core n ∧ 1 ≤ n ∧ n < 2 ^ 64

/-- A setting is what its variable says, or else its default. It is never zero, and no other
variable has a part in it. -/
structure IsReadByRule (name : String) (default : Nat) (setting : Environment → Nat) : Prop where
  eq_iff (env : Environment) (n : Nat) :
    setting env = n ↔ env.Says name n ∨ n = default ∧ ∀ m, ¬env.Says name m
  pos (env : Environment) : 0 < setting env
  eq_of_value_eq {env other : Environment} (h : other name = env name) : setting other = setting env

/-- The value of a variable is a text if its bytes are the UTF-8 form of that text. -/
theorem text?_eq_some_iff {s : String} : env.text? name = some s ↔ env name = some s.toUTF8 := by
  have hutf8 : ∀ bytes : ByteArray, String.fromUTF8? bytes = some s ↔ bytes = s.toUTF8 := by
    intro bytes
    rw [String.fromUTF8?]
    constructor
    · intro h
      split at h
      · obtain rfl := Option.some.inj h
        rfl
      · exact nomatch h
    · rintro rfl
      exact dif_pos s.isValidUTF8
  rw [text?, Option.bind_eq_some_iff]
  simp [hutf8]

/-- What a variable says is what a setting looks for in it. -/
theorem says_iff : env.Says name n ↔
    ((env.text? name).bind fun s => word? (trim s.toList)).filter (0 < ·) = some n := by
  have hnumber (s : String) : word? (trim s.toList) = some n ↔
      (∃ core, IsPadded s.toList core ∧ IsNumeral core n) ∧ n < UInt64.size := by
    rw [word?_eq_some_iff,
      trim_iff_exists_isPadded (P := fun cs => IsNumeral cs n) fun _ h => h.isBlank]
  rw [Option.filter_eq_some_iff, Option.bind_eq_some_iff, decide_eq_true_iff]
  simp only [text?_eq_some_iff, hnumber, Says]
  constructor
  · rintro ⟨s, core, hs, hpadded, hcore, hpos, hlt⟩
    exact ⟨⟨s, hs, ⟨core, hpadded, hcore⟩, hlt⟩, hpos⟩
  · rintro ⟨⟨s, hs, ⟨core, hpadded, hcore⟩, hlt⟩, hpos⟩
    exact ⟨s, core, hs, hpadded, hcore, hpos, hlt⟩

theorem isReadByRule_positive {default : Nat} (hdefault : 0 < default) :
    IsReadByRule name default fun env => env.positive name default where
  eq_iff env n := by
    simp only [says_iff, positive]
    cases ((env.text? name).bind fun s => word? (trim s.toList)).filter (0 < ·) with
    | none => simp [eq_comm]
    | some m => simp
  pos env := env.positive_pos name hdefault
  eq_of_value_eq h := by simp only [positive, text?, h]

/-- A number that cannot be zero is read like one that is checked afterwards. -/
theorem nonzero_val (env : Environment) (name : String) (default : { n : Nat // 0 < n }) :
    (env.nonzero name default).val = env.positive name default.val := by
  rw [nonzero, positive]
  cases env.text? name with
  | none => rfl
  | some s =>
    simp only [Option.bind_some, nonzeroWord?]
    cases word? (trim s.toList) with
    | none => rfl
    | some n => by_cases h : 0 < n <;> simp [h, Option.filter]

/-- The number of positions of a node, the size of the cache and its idle time in seconds are read
by one rule. Each is the positive number of 64 bits for which the value of its variable is a
numeral, but for blanks around it. If the variable is not set, holds no text or any other one, it
is its default. -/
theorem numeric_settings_read_alike :
    IsReadByRule Routing.Config.variableName 10
        (fun env => (Routing.Config.ofEnvironment env).virtualNodes) ∧
      IsReadByRule Resource.Config.sizeVariable 1024
        (fun env => (Resource.Config.ofEnvironment env).cacheSize) ∧
      IsReadByRule Resource.Config.idleVariable 600
        (fun env => (Resource.Config.ofEnvironment env).idleSeconds) := by
  have hsize : (fun env => (Resource.Config.ofEnvironment env).cacheSize) =
      fun env => env.positive Resource.Config.sizeVariable 1024 := by
    funext env
    exact env.nonzero_val Resource.Config.sizeVariable _
  refine ⟨isReadByRule_positive (by decide), ?_, isReadByRule_positive (by decide)⟩
  rw [hsize]
  exact isReadByRule_positive (by decide)

/-- The greatest number there is, with a sign, zeros and blanks in front; the number behind it; and
bytes that are no text. -/
theorem numeric_settings_at_the_limit :
    let env := ((Environment.empty.set Routing.Config.variableName
        "\u2003+0018446744073709551615\n".toUTF8).set Resource.Config.sizeVariable
        "18446744073709551616".toUTF8).set Resource.Config.idleVariable ⟨#[0x35, 0xFF]⟩
    (Routing.Config.ofEnvironment env).virtualNodes = 2 ^ 64 - 1 ∧
      (Resource.Config.ofEnvironment env).cacheSize = 1024 ∧
      (Resource.Config.ofEnvironment env).idleSeconds = 600 := by
  intro env
  obtain ⟨hpositions, hsize, hidle⟩ := numeric_settings_read_alike
  refine ⟨(hpositions.eq_iff env _).2 (.inl ?_), (hsize.eq_iff env _).2 (.inr ⟨rfl, ?_⟩),
    (hidle.eq_iff env _).2 (.inr ⟨rfl, ?_⟩)⟩
  · have hnumeral : IsNumeral "+0018446744073709551615".toList (2 ^ 64 - 1) := by
      refine ⟨"0018446744073709551615".toList, .inr (by decide +kernel), by decide +kernel, ?_,
        by decide +kernel⟩
      exact List.all_eq_true.1 (by decide +kernel)
    refine ⟨_, _, rfl, ⟨['\u2003'], ['\n'], ?_, ?_, ?_⟩, hnumeral, by decide, by decide⟩
    · exact List.all_eq_true.1 (by decide)
    · exact List.all_eq_true.1 (by decide)
    · decide +kernel
  · intro m h
    have htext : env.text? Resource.Config.sizeVariable = some "18446744073709551616" :=
      text?_eq_some_iff.2 rfl
    have hword : word? (trim "18446744073709551616".toList) = none := by decide +kernel
    rw [says_iff, htext, Option.bind_some, hword] at h
    exact nomatch h
  · intro m h
    have htext : env.text? Resource.Config.idleVariable = none := by decide +kernel
    rw [says_iff, htext] at h
    exact nomatch h

end Environment

end GlobalTransaction
