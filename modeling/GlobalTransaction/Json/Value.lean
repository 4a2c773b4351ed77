/-!
# JSON values

The values that a JSON text denotes. Two things are kept that a looser model would
lose: an object lists its members in the order of the text, repetitions included,
and a string literal whose escapes leave half of a surrogate pair is well formed
but spells no text.

## Main definitions

* `Literal` — the content of a string literal
* `Number` — a number, split into the integers and all others
* `Json` — a value
* `Json.depth` — how deeply arrays and objects are nested
* `Json.isStorable` — the values that can be kept aside before their type is known
* `Json.sortKeys` — the same value with the members of every object in key order
-/

namespace GlobalTransaction

/-- The content of a string literal. -/
inductive Literal
  /-- The literal spells this text. -/
  | text (value : String)
  /-- An escape names half of a surrogate pair without its other half. -/
  | unpaired
deriving DecidableEq

/-- A number. Without fraction and exponent it is an integer; a negative zero is not. -/
inductive Number
  /-- A number written without fraction and exponent. -/
  | integer (value : Int)
  /-- The number `± significand * 10 ^ exponent`. -/
  | real (negative : Bool) (significand : Nat) (exponent : Int)
deriving DecidableEq

/-- A JSON value. -/
inductive Json
  | null
  | bool (value : Bool)
  | number (value : Number)
  | string (value : Literal)
  | array (items : List Json)
  /-- The members in the order of the text. -/
  | object (members : List (Literal × Json))

namespace Json

/-- The string value that spells a text. -/
def ofText (s : String) : Json := .string (.text s)

/-- The number value of an integer. -/
def ofInt (i : Int) : Json := .number (.integer i)

/-- The object with these members. -/
def ofFields (fields : List (String × Json)) : Json :=
  .object (fields.map fun field => (.text field.1, field.2))

/-- An optional text, absence being `null`. -/
def ofText? (s : Option String) : Json := s.elim .null ofText

/-! ### Nesting -/

mutual

/-- The number of arrays and objects around the innermost value. -/
def depth : Json → Nat
  | .array items => depthItems items + 1
  | .object members => depthMembers members + 1
  | _ => 0

/-- The largest nesting among the items of an array. -/
def depthItems : List Json → Nat
  | [] => 0
  | item :: items => max (depth item) (depthItems items)

/-- The largest nesting among the members of an object. -/
def depthMembers : List (Literal × Json) → Nat
  | [] => 0
  | (_, value) :: members => max (depth value) (depthMembers members)

end

/-! ### Values that can be kept aside -/

end Json

/-- The nearest multiple of a power of two that leaves 53 binary digits, ties to the even one. -/
def roundToDouble (n : Nat) : Nat :=
  let unit := Nat.pow 2 (n.log2 - 52)
  let quotient := n / unit
  let remainder := n % unit
  if 2 * remainder < unit ∨ (2 * remainder = unit ∧ quotient % 2 = 0) then quotient * unit
  else (quotient + 1) * unit

/-- The leading digits of a significand that fit 64 bits, and the exponent that goes with them. -/
def clipSignificand (significand : Nat) (exponent : Int) : Nat × Int :=
  if significand < UInt64.size then (significand, exponent)
  else clipSignificand (significand / 10) (exponent + 1)
termination_by significand
decreasing_by
  simp only [UInt64.size] at *
  omega

namespace Number

/-- Whether the number stays below the end of the double-precision range, where a significand of
64 bits is scaled by a power of ten and each of the two is rounded first. -/
def isFinite : Number → Bool
  | .integer i => finite i.natAbs 0
  | .real _ significand exponent => finite significand exponent
where
  finite (significand : Nat) (exponent : Int) : Bool :=
    let (significand, exponent) := clipSignificand significand exponent
    significand = 0 || exponent < 0 ||
      (exponent ≤ 308 &&
        roundToDouble (roundToDouble significand * roundToDouble (Nat.pow 10 exponent.toNat))
          < Nat.pow 2 1024)

end Number

namespace Json

mutual

/-- A value can be kept aside when all its literals spell texts and all its numbers are finite. -/
def isDefinite : Json → Bool
  | .number n => n.isFinite
  | .string s => s != .unpaired
  | .array items => areDefinite items
  | .object members => membersDefinite members
  | _ => true

/-- Whether every item of an array is definite. -/
def areDefinite : List Json → Bool
  | [] => true
  | item :: items => isDefinite item && areDefinite items

/-- Whether every member of an object is definite, its name included. -/
def membersDefinite : List (Literal × Json) → Bool
  | [] => true
  | (name, value) :: members => name != .unpaired && isDefinite value && membersDefinite members

end

/-- The deepest nesting that a whole document may have where its values are kept aside. -/
def maxDepth : Nat := 127

/-- A member's value can be kept aside, before its type is known, when it is definite and, with
the object around it, not nested beyond the limit. -/
def isStorable (j : Json) : Bool := j.isDefinite && j.depth < maxDepth

/-! ### Key order -/

/-- The order of texts by code points; a literal that spells no text comes first. -/
def nameLe : Literal → Literal → Bool
  | .unpaired, _ => true
  | .text _, .unpaired => false
  | .text a, .text b => decide (a ≤ b)

mutual

/-- The same value with the members of every object in key order. -/
def sortKeys : Json → Json
  | .array items => .array (sortItems items)
  | .object members => .object ((sortMembers members).mergeSort fun a b => nameLe a.1 b.1)
  | j => j

/-- The items of an array, each with its members in key order. -/
def sortItems : List Json → List Json
  | [] => []
  | item :: items => sortKeys item :: sortItems items

/-- The members of an object in their old order, each value with its own members in key order. -/
def sortMembers : List (Literal × Json) → List (Literal × Json)
  | [] => []
  | (name, value) :: members => (name, sortKeys value) :: sortMembers members

end

end Json

end GlobalTransaction
